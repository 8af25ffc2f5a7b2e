import CallGraph.Proofs.Pipeline.Feed
import Mathlib.Algebra.Group.Nat.Defs
import Mathlib.Data.Nat.Find

/-!
Which edges are told a milestone: those at which a positive multiple of ten percent is attained for the
first time. Percentages never fall, so the last milestone is all that a tracker has to remember.
-/
namespace CallGraph

theorem percentage_eq (processed total : ℕ) :
    percentage processed total = min (100 * processed) (2 ^ 64 - 1) / total := by
  rw [percentage, Nat.mul_comm]
  rfl

theorem percentage_zero (total : ℕ) : percentage 0 total = 0 := by
  simp [percentage]

theorem percentage_mono (total : ℕ) {p q : ℕ} (h : p ≤ q) :
    percentage p total ≤ percentage q total := by
  unfold percentage
  apply Nat.div_le_div_right
  omega

/-- A count is the first at which a positive multiple of ten percent of a total is attained. -/
structure Attains (total p : ℕ) : Prop where
  positive : 0 < percentage p total
  multiple : 10 ∣ percentage p total
  first : ∀ q, 0 < q → q < p → percentage q total ≠ percentage p total

/-- Whatever count attains a positive multiple of ten, one count is the first to do so. -/
theorem exists_attains {total p : ℕ} (hp : 0 < p) (hpositive : 0 < percentage p total)
    (hmultiple : 10 ∣ percentage p total) :
    ∃ q, 0 < q ∧ q ≤ p ∧ percentage q total = percentage p total ∧ Attains total q := by
  classical
  have hexists : ∃ q, 0 < q ∧ percentage q total = percentage p total := ⟨p, hp, rfl⟩
  obtain ⟨hq, hsame⟩ := Nat.find_spec hexists
  refine ⟨Nat.find hexists, hq, Nat.find_min' hexists ⟨hp, rfl⟩, hsame, ?_⟩
  constructor
  · rwa [hsame]
  · rwa [hsame]
  · intro r hr hlt heq
    exact Nat.find_min hexists hlt ⟨hr, heq.trans hsame⟩

/-- All of a total is attained by its last edge, unless the product is held below it. -/
theorem percentage_self_iff {total : ℕ} (htotal : 0 < total) :
    percentage total total = 100 ↔ 100 * total ≤ 2 ^ 64 - 1 := by
  rw [percentage_eq]
  constructor
  · intro h
    have hle : 100 * total ≤ min (100 * total) (2 ^ 64 - 1) :=
      (Nat.le_div_iff_mul_le htotal).mp (le_of_eq h.symm)
    omega
  · intro h
    rw [Nat.min_eq_left h]
    exact Nat.mul_div_cancel 100 htotal

theorem percentage_lt_hundred {total q : ℕ} (h : q < total) : percentage q total < 100 := by
  rw [percentage_eq]
  apply Nat.div_lt_of_lt_mul
  omega

namespace Tracker

variable {t : Tracker} {m : Milestone}

/-- The last milestone of a tracker is the greatest multiple of ten that has been attained. -/
structure Marks (t : Tracker) : Prop where
  attained : ∃ p, p ≤ t.processed ∧ percentage p t.total = t.lastMilestone
  greatest : ∀ p, p ≤ t.processed → 10 ∣ percentage p t.total →
    percentage p t.total ≤ t.lastMilestone

theorem marks_start (total : ℕ) : (start total).Marks := by
  constructor
  · exact ⟨0, le_refl 0, percentage_zero total⟩
  · intro p hp _
    have hzero : p = 0 := Nat.le_zero.mp hp
    rw [hzero]
    exact le_of_eq (percentage_zero total)

/-- To stand above the last milestone is to be attained for the first time. -/
theorem Marks.attains_iff (h : t.Marks) :
    Attains t.total (t.processed + 1) ↔ percentage (t.processed + 1) t.total % 10 = 0 ∧
      t.lastMilestone < percentage (t.processed + 1) t.total := by
  constructor
  · intro hattains
    refine ⟨Nat.mod_eq_zero_of_dvd hattains.multiple, ?_⟩
    obtain ⟨p, hp, hlast⟩ := h.attained
    rw [← hlast]
    rcases Nat.eq_zero_or_pos p with rfl | hpos
    · rw [percentage_zero]
      exact hattains.positive
    · have hle : percentage p t.total ≤ percentage (t.processed + 1) t.total :=
        percentage_mono t.total (by omega)
      exact lt_of_le_of_ne hle (hattains.first p hpos (by omega))
  · rintro ⟨hmod, hlt⟩
    have hmultiple := Nat.dvd_of_mod_eq_zero hmod
    refine ⟨by omega, hmultiple, ?_⟩
    intro q _ hq heq
    have hle : percentage q t.total ≤ t.lastMilestone :=
      h.greatest q (by omega) (by rwa [heq])
    omega

theorem Marks.advance_eq_some_iff (h : t.Marks) (htotal : 0 < t.total) :
    t.advance.1 = some m ↔ Attains t.total (t.processed + 1) ∧
      m = ⟨percentage (t.processed + 1) t.total, t.processed + 1, t.total⟩ := by
  rw [h.attains_iff]
  unfold advance
  dsimp only
  split_ifs with hreached
  · rw [Option.some.injEq]
    constructor
    · rintro rfl
      exact ⟨hreached.2, rfl⟩
    · rintro ⟨-, rfl⟩
      rfl
  · constructor
    · rintro ⟨⟩
    · rintro ⟨hattained, -⟩
      exact absurd ⟨Nat.ne_of_gt htotal, hattained⟩ hreached

theorem Marks.advance (h : t.Marks) (htotal : 0 < t.total) : t.advance.2.Marks := by
  unfold Tracker.advance
  dsimp only
  split_ifs with hreached
  · constructor
    · exact ⟨t.processed + 1, le_refl _, rfl⟩
    · intro p hp _
      exact percentage_mono t.total hp
  · constructor
    · obtain ⟨p, hp, hlast⟩ := h.attained
      exact ⟨p, Nat.le_succ_of_le hp, hlast⟩
    · intro p hp hmultiple
      rcases Nat.le_succ_iff.mp hp with hp | rfl
      · exact h.greatest p hp hmultiple
      · by_contra hlast
        exact hreached ⟨Nat.ne_of_gt htotal, Nat.mod_eq_zero_of_dvd hmultiple, not_le.mp hlast⟩

theorem Marks.after (h : t.Marks) (htotal : 0 < t.total) (edges : ℕ) : (t.after edges).Marks := by
  induction edges generalizing t with
  | zero => exact h
  | succ n ih =>
    rw [after_succ]
    exact ih (h.advance htotal) (by rwa [advance_total])

def told (total number : ℕ) : Option Milestone :=
  ((start total).after (number - 1)).advance.1

theorem told_eq_some_iff {total p : ℕ} (htotal : 0 < total) (hp : 0 < p) :
    told total p = some m ↔ Attains total p ∧ m = ⟨percentage p total, p, total⟩ := by
  obtain ⟨hprocessed, htotal'⟩ := after_counts (start total) (p - 1)
  have hnumber : ((start total).after (p - 1)).processed + 1 = p := by
    rw [hprocessed]
    exact (Nat.zero_add _).symm ▸ Nat.sub_add_cancel hp
  have hmarks := (marks_start total).after htotal (p - 1)
  have hadvance := hmarks.advance_eq_some_iff (m := m) (by rwa [htotal'])
  rw [hnumber, htotal'] at hadvance
  exact hadvance

theorem after_succ_eq_advance (t : Tracker) (edges : ℕ) :
    t.after (edges + 1) = (t.after edges).advance.2 :=
  Function.iterate_succ_apply' ..

/-- Edges one after another are told what each of them is told. -/
theorem advanceMany_start (total n : ℕ) :
    (start total).advanceMany n =
      ((List.range' 1 n).filterMap (told total), (start total).after n) := by
  induction n with
  | zero => rfl
  | succ n ih =>
    have hstep : (start total).advanceMany (n + 1) =
        (((start total).advanceMany n).1 ++ ((start total).advanceMany n).2.advance.1.toList,
          ((start total).advanceMany n).2.advance.2) := rfl
    have hlast : told total (1 + n) = ((start total).after n).advance.1 := by
      rw [told, Nat.add_sub_cancel_left]
    have hsingle : [1 + n].filterMap (told total) = ((start total).after n).advance.1.toList := by
      rw [List.filterMap_cons, hlast]
      cases ((start total).after n).advance.1 <;> rfl
    rw [hstep, ih, after_succ_eq_advance, List.range'_1_concat, List.filterMap_append, hsingle]

end Tracker

structure Announced (total n : ℕ) (milestones : List Milestone) : Prop where
  percentage_eq : ∀ p, percentage p total = min (100 * p) (2 ^ 64 - 1) / total
  /-- An edge is told a milestone just if it is the first to attain a positive multiple of ten. -/
  told_iff : ∀ p, 0 < p → ∀ m, Tracker.told total p = some m ↔
    Attains total p ∧ m = ⟨percentage p total, p, total⟩
  listed : milestones = (List.range' 1 n).filterMap (Tracker.told total)
  /-- Each multiple that is attained has one milestone, with the first count that attained it. -/
  once : ∀ p, 0 < p → p ≤ n → 0 < percentage p total → 10 ∣ percentage p total →
    ∃ q, q ≤ p ∧ Attains total q ∧
      milestones.filter (·.percentage = percentage p total) = [⟨percentage p total, q, total⟩]
  multiples : ∀ m ∈ milestones, 0 < m.percentage ∧ 10 ∣ m.percentage
  increasing : milestones.Pairwise fun m m' => m.percentage < m'.percentage
  /-- The last edge of a total is told all of it, unless the product is held below that. -/
  hundred : (∃ m, Tracker.told total total = some m ∧ m.percentage = 100) ↔
    100 * total ≤ 2 ^ 64 - 1

/-- Among ascending percentages, each that occurs does so once. -/
theorem filter_percentage_eq {milestones : List Milestone} {m : Milestone}
    (hincreasing : milestones.Pairwise fun m m' => m.percentage < m'.percentage)
    (hm : m ∈ milestones) : milestones.filter (·.percentage = m.percentage) = [m] := by
  have hfiltered := hincreasing.filter (·.percentage = m.percentage)
  have hsame : ∀ m' ∈ milestones.filter (·.percentage = m.percentage),
      m'.percentage = m.percentage := by
    intro m' hm'
    simpa using (List.mem_filter.mp hm').2
  have hmem : m ∈ milestones.filter (·.percentage = m.percentage) := by simp [hm]
  rcases hlist : milestones.filter (·.percentage = m.percentage) with _ | ⟨a, _ | ⟨b, rest⟩⟩
  · rw [hlist] at hmem
    cases hmem
  · rw [hlist, List.mem_singleton] at hmem
    rw [hlist, ← hmem]
  · rw [hlist] at hfiltered hsame
    have hlt : a.percentage < b.percentage :=
      (List.pairwise_cons.mp hfiltered).1 b List.mem_cons_self
    have ha := hsame a List.mem_cons_self
    have hb := hsame b (List.mem_cons_of_mem a List.mem_cons_self)
    omega

namespace Tracker

theorem mem_told_iff {total n : ℕ} {m : Milestone} (htotal : 0 < total) :
    m ∈ (List.range' 1 n).filterMap (told total) ↔
      ∃ p, 0 < p ∧ p ≤ n ∧ Attains total p ∧ m = ⟨percentage p total, p, total⟩ := by
  rw [List.mem_filterMap]
  constructor
  · rintro ⟨p, hp, hm⟩
    rw [List.mem_range'_1] at hp
    have hpos : 0 < p := hp.1
    obtain ⟨hattains, rfl⟩ := (told_eq_some_iff htotal hpos).mp hm
    exact ⟨p, hpos, by omega, hattains, rfl⟩
  · rintro ⟨p, hpos, hle, hattains, rfl⟩
    exact ⟨p, List.mem_range'_1.mpr (by omega), (told_eq_some_iff htotal hpos).mpr ⟨hattains, rfl⟩⟩

theorem told_increasing {total : ℕ} (htotal : 0 < total) (n : ℕ) :
    ((List.range' 1 n).filterMap (told total)).Pairwise
      fun m m' => m.percentage < m'.percentage := by
  apply List.Pairwise.filterMap (R := fun p q => 0 < p ∧ p < q)
  · rintro p q ⟨hp, hpq⟩ m hm m' hm'
    obtain ⟨-, rfl⟩ := (told_eq_some_iff htotal hp).mp hm
    obtain ⟨hattains, rfl⟩ := (told_eq_some_iff htotal (Nat.lt_trans hp hpq)).mp hm'
    exact lt_of_le_of_ne (percentage_mono total (Nat.le_of_lt hpq)) (hattains.first p hp hpq)
  · rw [List.pairwise_iff_getElem]
    intro i j hi hj hlt
    rw [List.getElem_range', List.getElem_range']
    omega

theorem told_hundred_iff {total : ℕ} (htotal : 0 < total) :
    (∃ m, told total total = some m ∧ m.percentage = 100) ↔ 100 * total ≤ 2 ^ 64 - 1 := by
  rw [← percentage_self_iff htotal]
  constructor
  · rintro ⟨m, hm, hhundred⟩
    obtain ⟨-, rfl⟩ := (told_eq_some_iff htotal htotal).mp hm
    exact hhundred
  · intro hself
    have hattains : Attains total total := by
      constructor
      · omega
      · rw [hself]
        decide
      · intro q _ hq
        rw [hself]
        exact Nat.ne_of_lt (percentage_lt_hundred hq)
    exact ⟨_, (told_eq_some_iff htotal htotal).mpr ⟨hattains, rfl⟩, hself⟩

theorem announced {total : ℕ} (htotal : 0 < total) (n : ℕ) :
    Announced total n ((List.range' 1 n).filterMap (told total)) where
  percentage_eq p := percentage_eq p total
  told_iff p hp m := told_eq_some_iff htotal hp
  listed := rfl
  once p hp hle hpositive hmultiple := by
    obtain ⟨q, hq, hqp, hsame, hattains⟩ := exists_attains hp hpositive hmultiple
    refine ⟨q, hqp, hattains, ?_⟩
    have hmem : ⟨percentage q total, q, total⟩ ∈ (List.range' 1 n).filterMap (told total) :=
      (mem_told_iff htotal).mpr ⟨q, hq, Nat.le_trans hqp hle, hattains, rfl⟩
    rw [← hsame]
    exact filter_percentage_eq (told_increasing htotal n) hmem
  multiples m hm := by
    obtain ⟨p, -, -, hattains, rfl⟩ := (mem_told_iff htotal).mp hm
    exact ⟨hattains.positive, hattains.multiple⟩
  increasing := told_increasing htotal n
  hundred := told_hundred_iff htotal

/-- A total of nothing never tells a milestone. -/
theorem advance_of_zero {t : Tracker} (h : t.total = 0) : t.advance.1 = none := by
  simp [advance, h]

theorem told_zero (p : ℕ) : told 0 p = none := by
  apply advance_of_zero
  rw [(after_counts (start 0) (p - 1)).2]
  rfl

/-- Edges are told each positive multiple of ten percent when it is first attained, and nothing else. -/
theorem milestones_first_attained (total n : ℕ) :
    (0 < total → Announced total n ((start total).advanceMany n).1) ∧
      (total = 0 → ((start total).advanceMany n).1 = []) := by
  rw [advanceMany_start]
  constructor
  · intro htotal
    exact announced htotal n
  · rintro rfl
    exact List.filterMap_eq_nil_iff.mpr fun p _ => told_zero p

/-- A stream of seven edges that was announced as one of three goes on to twice the total. -/
theorem milestones_first_attained_beyond :
    0 < 3 ∧ Announced 3 7 [⟨100, 3, 3⟩, ⟨200, 6, 3⟩] := by
  have hlist : ((start 3).advanceMany 7).1 = [⟨100, 3, 3⟩, ⟨200, 6, 3⟩] := by decide
  have hannounced := (milestones_first_attained 3 7).1 (by decide)
  rw [hlist] at hannounced
  exact ⟨by decide, hannounced⟩

end Tracker
end CallGraph
