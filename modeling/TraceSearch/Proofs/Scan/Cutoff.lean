import Mathlib.Data.ENat.Lattice
import TraceSearch.Scan.Basic

/-!
# Where a scan stops

Two things cut a scan short: the limit of its query and the first check that observes a
cancellation. Both are counts that may be infinite, and both leave the first entries of a list.
Main facts: `firstOf` goes through a list as a scan does, one entry for each step of the count, and
`firstSeen` of a schedule goes down by one with each check that passes.
-/

namespace TraceSearch

section FirstOf

variable {α : Type}

/-- The first `count` elements of a list. -/
noncomputable def firstOf (count : ℕ∞) (xs : List α) : List α :=
  xs.take (min count xs.length).toNat

theorem natCast_min (m n : ℕ) : ((min m n : ℕ) : ℕ∞) = min (m : ℕ∞) n := Nat.mono_cast.map_min

@[simp] theorem firstOf_coe (n : ℕ) (xs : List α) : firstOf n xs = xs.take n := by
  rw [firstOf, ← natCast_min, ENat.toNat_natCast]
  exact List.take_eq_take_min.symm

@[simp] theorem firstOf_top (xs : List α) : firstOf ⊤ xs = xs := by
  rw [firstOf, min_eq_right le_top, ENat.toNat_natCast, List.take_length]

@[simp] theorem firstOf_zero (xs : List α) : firstOf 0 xs = [] := by
  simpa using firstOf_coe 0 xs

@[simp] theorem firstOf_nil (count : ℕ∞) : firstOf count ([] : List α) = [] := by
  simp [firstOf]

theorem firstOf_add_one_cons (count : ℕ∞) (x : α) (xs : List α) :
    firstOf (count + 1) (x :: xs) = x :: firstOf count xs := by
  cases count with
  | top => simp
  | coe n => rw [← Nat.cast_add_one, firstOf_coe, firstOf_coe, List.take_succ_cons]

theorem firstOf_sub_cons {room : ℕ∞} {used : ℕ} (h : (used : ℕ∞) < room) (x : α) (xs : List α) :
    firstOf (room - used) (x :: xs) = x :: firstOf (room - (used + 1 : ℕ)) xs := by
  have hroom : room - used = room - (used + 1 : ℕ) + 1 := by
    cases room with
    | top => rw [ENat.top_sub_natCast, ENat.top_sub_natCast, top_add]
    | coe n =>
      have hn : used < n := Nat.cast_lt.1 h
      rw [← ENat.natCast_sub, ← ENat.natCast_sub, ← Nat.cast_add_one]
      congr 1
      omega
  rw [hroom, firstOf_add_one_cons]

theorem length_firstOf (count : ℕ∞) (xs : List α) :
    ((firstOf count xs).length : ℕ∞) = min count xs.length := by
  cases count with
  | top => simp
  | coe n => rw [firstOf_coe, List.length_take, natCast_min]

theorem map_firstOf {β : Type} (f : α → β) (count : ℕ∞) (xs : List α) :
    (firstOf count xs).map f = firstOf count (xs.map f) := by
  rw [firstOf, firstOf, List.map_take, List.length_map]

theorem firstOf_of_length_le {count : ℕ∞} {xs : List α} (h : (xs.length : ℕ∞) ≤ count) :
    firstOf count xs = xs := by
  rw [firstOf, min_eq_right h, ENat.toNat_natCast, List.take_length]

/-- Cutting a list first loses nothing where enough accepted elements come before the cut. -/
theorem firstOf_filter_firstOf {room count : ℕ∞} {p : α → Bool} {xs : List α}
    (h : room ≤ ((firstOf count xs).filter p).length) :
    firstOf room ((firstOf count xs).filter p) = firstOf room (xs.filter p) := by
  obtain ⟨n, rfl⟩ := ENat.ne_top_iff_exists.1 (h.trans_lt (ENat.natCast_lt_top _)).ne
  cases count with
  | top => rw [firstOf_top]
  | coe k =>
    rw [firstOf_coe, Nat.cast_le] at h
    have hsplit : xs.filter p = (xs.take k).filter p ++ (xs.drop k).filter p := by
      rw [← List.filter_append, List.take_append_drop]
    rw [firstOf_coe, firstOf_coe, firstOf_coe, hsplit, List.take_append_of_le_length h]

end FirstOf

/-- A limit as a count; zero is no limit. -/
noncomputable def bound (limit : ℕ) : ℕ∞ := if limit = 0 then ⊤ else limit

theorem bound_le_iff {limit matched : ℕ} :
    bound limit ≤ matched ↔ limit ≠ 0 ∧ limit ≤ matched := by
  unfold bound
  split
  · rename_i h
    simp [h]
  · rename_i h
    simp [h]

namespace Schedule

/-- The schedule that cancels nothing. -/
def never : Schedule := fun _ => false

/-- The checks from check `n` on, counted anew. -/
def drop (schedule : Schedule) (n : ℕ) : Schedule := fun j => schedule (n + j)

/-- The first check that observes the cancellation, infinite if there is none. -/
noncomputable def firstSeen (schedule : Schedule) : ℕ∞ :=
  ⨅ j : {j : ℕ // schedule j = true}, (j.val : ℕ∞)

theorem le_firstSeen_iff {schedule : Schedule} {count : ℕ∞} :
    count ≤ schedule.firstSeen ↔ ∀ j, schedule j = true → count ≤ j := by
  simp [firstSeen, le_iInf_iff]

theorem firstSeen_le {schedule : Schedule} {j : ℕ} (h : schedule j = true) :
    schedule.firstSeen ≤ j :=
  le_firstSeen_iff.1 le_rfl j h

@[simp] theorem firstSeen_never : never.firstSeen = ⊤ :=
  top_le_iff.1 (le_firstSeen_iff.2 fun _ h => nomatch h)

@[simp] theorem drop_zero (schedule : Schedule) : schedule.drop 0 = schedule := by
  funext j
  rw [drop, Nat.zero_add]

theorem firstSeen_drop_of_seen {schedule : Schedule} {n : ℕ} (h : schedule n = true) :
    (schedule.drop n).firstSeen = 0 :=
  nonpos_iff_eq_zero.1 (firstSeen_le (j := 0) h)

theorem firstSeen_drop_of_passed {schedule : Schedule} {n : ℕ} (h : schedule n = false) :
    (schedule.drop n).firstSeen = (schedule.drop (n + 1)).firstSeen + 1 := by
  apply le_antisymm
  · rw [firstSeen, firstSeen, ENat.iInf_add]
    refine le_iInf fun j => ?_
    have hj : (schedule.drop n) (j.val + 1) = true := by
      have := j.property
      rwa [drop, Nat.add_assoc, Nat.add_comm 1] at this
    exact iInf_le (fun k : {k : ℕ // (schedule.drop n) k = true} => (k.val : ℕ∞)) ⟨_, hj⟩
  · refine le_firstSeen_iff.2 fun j hj => ?_
    cases j with
    | zero => exact absurd (h.symm.trans hj) Bool.false_ne_true
    | succ j =>
      have hj : (schedule.drop (n + 1)) j = true := by
        rwa [drop, Nat.add_assoc, Nat.add_comm 1]
      rw [Nat.cast_add_one]
      gcongr
      exact firstSeen_le hj

end Schedule

end TraceSearch
