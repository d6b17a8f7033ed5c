import Mathlib.Data.List.Forall2
import Mathlib.Tactic.Common

/-!
# Fallible steps

What it takes for a computation made of fallible steps to succeed, one rule for each way of
combining steps.

* **`bind_ok_iff`**, **`refuse_ok_iff`**: a sequence, and a check that fails early.
* **`mapM_ok_iff`**, **`forM_ok_iff`**: the same step for every element of a list. The results
  correspond to the elements one by one (`List.Forall₂`), and the rules behind these carry a
  property from one side to the other.
* **`mapError_ok_iff`**: how a failure is reported is not looked at.

With these a computation in `Except` is taken apart by rewriting, without unfolding its binds, and
its success becomes a conjunction of the successes of its steps.
-/

namespace BuduWaf

variable {ε ε' α β : Type}

/-- A sequence succeeds where its first step does and the rest does on what it gives. -/
theorem bind_ok_iff {x : Except ε α} {f : α → Except ε β} {b : β} :
    (x >>= f) = .ok b ↔ ∃ a, x = .ok a ∧ f a = .ok b := by
  cases x with
  | error e =>
      constructor
      · intro h
        cases h
      · rintro ⟨_, h, -⟩
        cases h
  | ok a =>
      constructor
      · intro h
        exact ⟨a, rfl, h⟩
      · rintro ⟨_, h, hf⟩
        obtain rfl := Except.ok.inj h
        exact hf

/-- A check that fails early succeeds where its condition is not met and the rest succeeds. -/
theorem refuse_ok_iff {p : Prop} [Decidable p] {e : ε} {f : α → Except ε β}
    {x : Except ε β} {b : β} :
    (if p then throw e >>= f else x) = .ok b ↔ ¬ p ∧ x = .ok b := by
  by_cases hp : p
  · rw [if_pos hp]
    exact iff_of_false (by rintro ⟨⟩) (fun h => h.1 hp)
  · rw [if_neg hp]
    exact (and_iff_right hp).symm

/-- A list is worked off where each of its elements is. -/
theorem mapM_ok_iff {f : α → Except ε β} {as : List α} {bs : List β} :
    as.mapM f = .ok bs ↔ List.Forall₂ (fun a b => f a = .ok b) as bs := by
  induction as generalizing bs with
  | nil =>
      rw [List.mapM_nil, List.forall₂_nil_left_iff]
      exact ⟨fun h => (Except.ok.inj h).symm, fun h => h ▸ rfl⟩
  | cons a as ih =>
      rw [List.mapM_cons, bind_ok_iff, List.forall₂_cons_left_iff]
      simp only [bind_ok_iff, ih]
      constructor
      · rintro ⟨b, hb, bs', hbs', h⟩
        exact ⟨b, bs', hb, hbs', (Except.ok.inj h).symm⟩
      · rintro ⟨b, bs', hb, hbs', rfl⟩
        exact ⟨b, hb, bs', hbs', rfl⟩

/-- `mapM` succeeds iff each element has a result. -/
theorem exists_mapM_ok_iff {f : α → Except ε β} {as : List α} :
    (∃ bs, as.mapM f = .ok bs) ↔ ∀ a ∈ as, ∃ b, f a = .ok b := by
  simp only [mapM_ok_iff]
  induction as with
  | nil => simp
  | cons a as ih =>
      rw [List.forall_mem_cons, ← ih]
      constructor
      · rintro ⟨bs, h⟩
        obtain ⟨b, bs', hb, hbs, -⟩ := List.forall₂_cons_left_iff.mp h
        exact ⟨⟨b, hb⟩, bs', hbs⟩
      · rintro ⟨⟨b, hb⟩, bs', hbs⟩
        exact ⟨b :: bs', List.Forall₂.cons hb hbs⟩

/-- What stands on the right has something on the left. -/
theorem exists_left_of_forall₂ {R : α → β → Prop} {as : List α} {bs : List β}
    (h : List.Forall₂ R as bs) {b : β} (hb : b ∈ bs) : ∃ a ∈ as, R a b := by
  induction h with
  | nil => cases hb
  | @cons a b' as bs hab _ ih =>
      rcases List.mem_cons.mp hb with rfl | hb
      · exact ⟨a, List.mem_cons_self, hab⟩
      · obtain ⟨a', ha', hab'⟩ := ih hb
        exact ⟨a', List.mem_cons_of_mem a ha', hab'⟩

/-- Of two lists related one by one, each element of the first has a relative in the second. -/
theorem exists_right_of_forall₂ {R : α → β → Prop} {as : List α} {bs : List β}
    (h : List.Forall₂ R as bs) {a : α} (ha : a ∈ as) : ∃ b ∈ bs, R a b :=
  exists_left_of_forall₂ h.flip ha

/-- Each result of a pass over a list is the result of one of its elements. -/
theorem exists_of_mem_mapM {f : α → Except ε β} {as : List α} {bs : List β}
    (h : as.mapM f = .ok bs) {b : β} (hb : b ∈ bs) : ∃ a ∈ as, f a = .ok b :=
  exists_left_of_forall₂ (mapM_ok_iff.mp h) hb

/-- Where `mapM` succeeds, each element has its result in the list. -/
theorem exists_mem_of_mapM {f : α → Except ε β} {as : List α} {bs : List β}
    (h : as.mapM f = .ok bs) {a : α} (ha : a ∈ as) : ∃ b ∈ bs, f a = .ok b :=
  exists_right_of_forall₂ (mapM_ok_iff.mp h) ha

/-- Where all of a list was found, each of its elements was. -/
theorem isSome_of_mem_mapM {f : α → Option β} {as : List α} {bs : List β}
    (h : as.mapM f = some bs) : ∀ a ∈ as, (f a).isSome = true := by
  induction as generalizing bs with
  | nil => exact nofun
  | cons a as ih =>
      rw [List.mapM_cons] at h
      obtain ⟨b, hb, h⟩ := Option.bind_eq_some_iff.mp h
      obtain ⟨bs', hbs', -⟩ := Option.bind_eq_some_iff.mp h
      exact List.forall_mem_cons.mpr ⟨by rw [hb]; rfl, ih hbs'⟩

/-- Checks made one after another succeed iff each of them does. -/
theorem forM_ok_iff {f : α → Except ε Unit} {as : List α} :
    as.forM f = .ok () ↔ ∀ a ∈ as, f a = .ok () := by
  induction as with
  | nil => exact iff_of_true rfl fun a ha => absurd ha List.not_mem_nil
  | cons a as ih =>
      show (f a >>= fun _ => as.forM f) = .ok () ↔ _
      rw [bind_ok_iff, List.forall_mem_cons, ← ih]
      exact ⟨fun ⟨_, ha, has⟩ => ⟨ha, has⟩, fun ⟨ha, has⟩ => ⟨(), ha, has⟩⟩

/-- A list of one element is worked off where the element is. -/
theorem singleton_of_mapM {f : α → Except ε β} {a : α} {bs : List β}
    (h : [a].mapM f = .ok bs) : ∃ b, f a = .ok b ∧ bs = [b] := by
  rw [List.mapM_cons] at h
  obtain ⟨b, hb, h⟩ := bind_ok_iff.mp h
  obtain ⟨bs', hbs', h⟩ := bind_ok_iff.mp h
  obtain rfl := Except.ok.inj hbs'
  exact ⟨b, hb, (Except.ok.inj h).symm⟩

/-- A step that succeeds ends in the value that is taken from it. -/
theorem ok_of_toOption_get (r : Except ε α) (h : r.toOption.isSome) :
    r = .ok (r.toOption.get h) := by
  cases r with
  | error e => cases h
  | ok a => rfl

/-- Success does not depend on how failures are reported. -/
theorem mapError_ok_iff {x : Except ε α} {f : ε → ε'} {a : α} :
    x.mapError f = .ok a ↔ x = .ok a := by
  cases x with
  | error e => exact iff_of_false (by rintro ⟨⟩) (by rintro ⟨⟩)
  | ok a' =>
      show Except.ok a' = .ok a ↔ _
      rw [Except.ok.injEq, Except.ok.injEq]

/-- A result that is worked on further is a success if and only if it was one before. -/
theorem map_ok_iff {x : Except ε α} {f : α → β} {b : β} :
    x.map f = .ok b ↔ ∃ a, x = .ok a ∧ f a = b := by
  have hbind : x.map f = x >>= fun a => .ok (f a) := by cases x <;> rfl
  rw [hbind, bind_ok_iff]
  simp only [Except.ok.injEq]

end BuduWaf
