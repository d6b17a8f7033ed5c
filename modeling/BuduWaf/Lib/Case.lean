import BuduWaf.Lib.Lines

/-!
# Folding the case of ASCII letters

* **`toLower_cases`**: what folding does to a character: it moves the upper-case letters up by 32
  and leaves the others.
* **`notMem_toAsciiLowercase`**: no character outside the lower-case letters appears.

Folding is that of ASCII: letters outside of it are left as they are, so a separator that is not a
letter survives folding and none is made by it.
-/

namespace BuduWaf.Str

/-- An upper-case letter becomes the lower-case one; another character stays. -/
theorem toLower_cases (c : Char) :
    (65 ≤ c.toNat ∧ c.toNat ≤ 90 ∧ c.toLower.toNat = c.toNat + 32) ∨
      (¬(65 ≤ c.toNat ∧ c.toNat ≤ 90) ∧ c.toLower = c) := by
  by_cases hupper : c.val ≥ 'A'.val ∧ c.val ≤ 'Z'.val
  · have hlow : 65 ≤ c.toNat := hupper.1
    have hhigh : c.toNat ≤ 90 := hupper.2
    refine .inl ⟨hlow, hhigh, ?_⟩
    have hlower : c.toLower.val = c.val + 32 := by
      unfold Char.toLower
      rw [dif_pos hupper]
      rfl
    have hvalue : (c.val + 32).toNat = c.val.toNat + 32 := by
      rw [UInt32.toNat_add]
      have hsmall : c.val.toNat ≤ 90 := hhigh
      have hthirty : (32 : UInt32).toNat = 32 := rfl
      omega
    show c.toLower.val.toNat = c.val.toNat + 32
    rw [hlower, hvalue]
  · refine .inr ⟨fun h => hupper ⟨h.1, h.2⟩, ?_⟩
    unfold Char.toLower
    rw [dif_neg hupper]

/-- What is no lower-case letter is folded from itself only. -/
theorem eq_of_toLower_eq {c d : Char} (hd : d.toNat < 97) (h : c.toLower = d) : c = d := by
  rcases toLower_cases c with ⟨hlow, -, hlower⟩ | ⟨-, hsame⟩
  · rw [h] at hlower
    omega
  · rw [← hsame, h]

/-- A character below `a` that a text does not have is not in its lower case either. -/
theorem notMem_toAsciiLowercase {d : Char} (hd : d.toNat < 97) {s : Str} (h : d ∉ s) :
    d ∉ toAsciiLowercase s := by
  intro hmem
  obtain ⟨c, hc, hlower⟩ := List.mem_map.mp hmem
  rw [eq_of_toLower_eq hd hlower] at hc
  exact h hc

end BuduWaf.Str
