import Mathlib.Tactic.Common

/-!
# Arcs of a circle

A circle of `n` points, which are numbered by the integers modulo `n`. The arc from `a` to `b` is
what a walk in steps of one passes from `a` on until it meets `b`.

* **`OnArc`**: the points of an arc, both ends included.
* **`onArc_iff_of_le`**, **`onArc_iff_of_lt`**: between numbers of one turn, an arc is an interval,
  or what is outside of one.
* **`onArc_step_iff`**, **`distance_step`**: what one step of the walk passes, and that it comes
  nearer to the end.

Everything comes from one function, the `distance` of a walk in steps of one: a point lies on the
arc from `a` to `b` if it is reached from `a` no later than `b` is. An interval that wraps around
is then no special case. It only becomes one where arcs are compared with the order of numbers of
one turn (`distance_cases`), which is where a clock or a calendar computes with `<`.

The numbers of a turn are residues, so points may be given by any integers (`distance_emod_left`).
-/

namespace BuduWaf.Cyclic

variable {n a b x : Int}

/-- How many steps forward on a circle of `n` positions lead from `a` to `b`. -/
def distance (n a b : Int) : Int := (b - a) % n

/-- The point lies on the arc from `a` to `b`. -/
def OnArc (n a b x : Int) : Prop := distance n a x ≤ distance n a b

instance (n a b x : Int) : Decidable (OnArc n a b x) :=
  inferInstanceAs (Decidable (distance n a x ≤ distance n a b))

/-- The distance from one point on to another is not negative. -/
theorem distance_nonneg (hn : 0 < n) (a b : Int) : 0 ≤ distance n a b :=
  Int.emod_nonneg _ (Int.ne_of_gt hn)

/-- The distance from one point on to another is less than a full turn. -/
theorem distance_lt (hn : 0 < n) (a b : Int) : distance n a b < n := Int.emod_lt_of_pos _ hn

/-- The distance from a point to itself is zero. -/
@[simp] theorem distance_self (n a : Int) : distance n a a = 0 := by simp [distance]

/-- A difference of points, up to full turns, that is between zero and a full turn is the distance.
-/
theorem distance_eq_of_turns {d k : Int} (h : b - a = d + n * k) (hd : 0 ≤ d) (hdn : d < n) :
    distance n a b = d := by
  unfold distance
  rw [h, Int.add_mul_emod_self_left]
  exact Int.emod_eq_of_lt hd hdn

/-- The distance does not change with full turns of its start. -/
theorem distance_emod_left (n a b : Int) : distance n (a % n) b = distance n a b := by
  unfold distance
  rw [Int.sub_emod, Int.emod_emod_of_dvd a (Int.dvd_refl n), ← Int.sub_emod]

/-- The distance between two numbers of a turn is their difference, or a turn more. -/
theorem distance_cases (ha : 0 ≤ a) (han : a < n) (hb : 0 ≤ b) (hbn : b < n) :
    (a ≤ b ∧ distance n a b = b - a) ∨ (b < a ∧ distance n a b = b - a + n) := by
  by_cases hab : a ≤ b
  · exact .inl ⟨hab, distance_eq_of_turns (k := 0) (by omega) (by omega) (by omega)⟩
  · exact .inr ⟨by omega, distance_eq_of_turns (k := -1) (by omega) (by omega) (by omega)⟩

/-- No steps lead from a point to the same one only. -/
theorem distance_eq_zero_iff (ha : 0 ≤ a) (han : a < n) (hb : 0 ≤ b) (hbn : b < n) :
    distance n a b = 0 ↔ a = b := by
  constructor
  · intro h
    have hd := distance_cases ha han hb hbn
    omega
  · rintro rfl
    exact distance_self n a

/-! ## Arcs of numbers -/

/-- A point is on an arc that does not pass zero iff it lies between its ends. -/
theorem onArc_iff_of_le (ha : 0 ≤ a) (hab : a ≤ b) (hb : b < n) (hx : 0 ≤ x) (hxn : x < n) :
    OnArc n a b x ↔ a ≤ x ∧ x ≤ b := by
  have hend := distance_cases ha (by omega) (by omega) hb
  have hpoint := distance_cases ha (by omega) hx hxn
  unfold OnArc
  omega

/-- An arc that ends before its start passes the zero. -/
theorem onArc_iff_of_lt (hb : 0 ≤ b) (hba : b < a) (ha : a < n) (hx : 0 ≤ x) (hxn : x < n) :
    OnArc n a b x ↔ a ≤ x ∨ x ≤ b := by
  have hend := distance_cases (by omega) ha hb (by omega)
  have hpoint := distance_cases (by omega) ha hx hxn
  unfold OnArc
  omega

/-! ## The walk -/

/-- The next point on the way is nearer by one. -/
theorem distance_step (hn : 0 < n) (h : distance n a b ≠ 0) :
    distance n (a + 1) b = distance n a b - 1 := by
  have hnonneg := distance_nonneg hn a b
  have hlt := distance_lt hn a b
  have hturns : b - a = distance n a b + n * ((b - a) / n) := (Int.emod_add_mul_ediv _ _).symm
  exact distance_eq_of_turns (k := (b - a) / n) (by omega) (by omega) (by omega)

/-- An arc whose ends are the same has that one point. -/
theorem onArc_end_iff (hn : 0 < n) (h : distance n a b = 0) :
    OnArc n a b x ↔ distance n a x = 0 := by
  have hnonneg := distance_nonneg hn a x
  unfold OnArc
  omega

/-- **Before its end**, the arc is its first point and the arc from the next one. -/
theorem onArc_step_iff (hn : 0 < n) (h : distance n a b ≠ 0) :
    OnArc n a b x ↔ distance n a x = 0 ∨ OnArc n (a + 1) b x := by
  have hnonneg := distance_nonneg hn a x
  have hlt := distance_lt hn a b
  unfold OnArc
  rw [distance_step hn h]
  by_cases hx : distance n a x = 0
  · have hend := distance_nonneg hn a b
    omega
  · rw [distance_step hn hx]
    omega

end BuduWaf.Cyclic
