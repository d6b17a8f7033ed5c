import Mathlib.Data.List.Chain
import Mathlib.Data.List.Infix
import Mathlib.Tactic.Common

/-!
# Trailing runs

The end of a list in which each element continues the one before. One element more either
continues the run or starts a new one (`extendRun`), so a fold finds it
(`isTrailingRun_trailingRun`), and there is only one (`IsTrailingRun.unique`).

A run is what a counter with a sliding expiry sums up: the additions since it last ran out. The
fold is how a program computes it, one element at a time; the definition says which elements these
are; and uniqueness is what lets the two be exchanged.
-/

namespace BuduWaf

variable {α : Type} {continues : α → α → Prop}

/-- The longest suffix in which every element continues the one before it. -/
structure IsTrailingRun (continues : α → α → Prop) (run as : List α) : Prop where
  /-- It ends the list. -/
  suffix : run <:+ as
  /-- Each of its elements continues the one before. -/
  chain : run.IsChain continues
  /-- No longer end of the list does. -/
  longest : ∀ other, other <:+ as → other.IsChain continues → other.length ≤ run.length

/-- The trailing run after one element more: it goes on, or the element begins a new one. -/
def extendRun (continues : α → α → Prop) [DecidableRel continues] (run : List α) (a : α) : List α :=
  if ∀ last ∈ run.getLast?, continues last a then run ++ [a] else [a]

/-- The trailing run of a list, found by one pass over it. -/
def trailingRun (continues : α → α → Prop) [DecidableRel continues] (as : List α) : List α :=
  as.foldl (extendRun continues) []

namespace IsTrailingRun

/-- The empty list ends with the empty run. -/
theorem nil : IsTrailingRun continues [] [] := by
  refine ⟨List.suffix_refl _, List.isChain_nil, ?_⟩
  intro other hother _
  rw [List.suffix_nil.mp hother]

/-- A list has only one trailing run. -/
theorem unique {run run' as : List α} (h : IsTrailingRun continues run as)
    (h' : IsTrailingRun continues run' as) : run = run' := by
  have hlength : run.length = run'.length :=
    Nat.le_antisymm (h'.longest _ h.suffix h.chain) (h.longest _ h'.suffix h'.chain)
  have hsuffix := List.suffix_of_suffix_length_le h.suffix h'.suffix (Nat.le_of_eq hlength)
  exact hsuffix.eq_of_length hlength

/-- The run of a list that ends with an element ends with it. -/
theorem getLast?_eq {run as : List α} (h : IsTrailingRun continues run as) :
    run.getLast? = as.getLast? := by
  obtain ⟨before, rfl⟩ := h.suffix
  rcases List.eq_nil_or_concat' run with rfl | ⟨init, last, rfl⟩
  · rw [List.append_nil]
    rcases List.eq_nil_or_concat' before with rfl | ⟨init, last, rfl⟩
    · rfl
    · have hone := h.longest [last] ⟨init, by rw [List.append_nil]⟩ (List.isChain_singleton _)
      exact absurd hone (by simp)
  · rw [← List.append_assoc, List.getLast?_concat, List.getLast?_concat]

variable [DecidableRel continues]

/-- **One element more**: extending the run a list ends with by an element gives the run that the
list with it ends with. -/
theorem concat {run as : List α} (h : IsTrailingRun continues run as) (a : α) :
    IsTrailingRun continues (extendRun continues run a) (as ++ [a]) := by
  have hends : ∀ other, other <:+ as ++ [a] → other = [] ∨ ∃ o, other = o ++ [a] ∧ o <:+ as := by
    intro other hother
    rcases List.eq_nil_or_concat' other with rfl | ⟨o, last, rfl⟩
    · exact .inl rfl
    · obtain ⟨before, hbefore⟩ := hother
      rw [← List.append_assoc] at hbefore
      obtain ⟨has, hlast⟩ := List.append_inj' hbefore rfl
      exact .inr ⟨o, by rw [List.singleton_inj.mp hlast], before, has⟩
  unfold extendRun
  split
  · rename_i hjoin
    refine ⟨?_, ?_, ?_⟩
    · obtain ⟨before, hbefore⟩ := h.suffix
      exact ⟨before, by rw [← List.append_assoc, hbefore]⟩
    · rw [List.isChain_append]
      refine ⟨h.chain, List.isChain_singleton _, ?_⟩
      intro last hlast b hb
      obtain rfl := Option.some.inj hb
      exact hjoin last hlast
    · intro other hother hchain
      rcases hends other hother with rfl | ⟨o, rfl, ho⟩
      · exact Nat.zero_le _
      · have hle := h.longest o ho (List.isChain_append.mp hchain).1
        simp only [List.length_append, List.length_singleton]
        omega
  · rename_i hbreak
    refine ⟨⟨as, rfl⟩, List.isChain_singleton _, ?_⟩
    intro other hother hchain
    rcases hends other hother with rfl | ⟨o, rfl, ho⟩
    · exact Nat.zero_le _
    · -- The element does not continue the last one, so nothing stands before it.
      have hempty : o = [] := by
        by_contra hne
        refine hbreak ?_
        intro last hlast
        have hlasts : o.getLast? = some last := by
          obtain ⟨before, rfl⟩ := ho
          have hrun := h.getLast?_eq.symm.trans hlast
          rwa [List.getLast?_append_of_ne_nil _ hne] at hrun
        exact (List.isChain_append.mp hchain).2.2 last hlasts a rfl
      rw [hempty]
      exact Nat.le_refl _

/-- Extending a run by one item after another gives the run that all of them end with. -/
theorem foldl {run as : List α} (h : IsTrailingRun continues run as) (bs : List α) :
    IsTrailingRun continues (bs.foldl (extendRun continues) run) (as ++ bs) := by
  induction bs generalizing run as with
  | nil => rwa [List.append_nil]
  | cons b bs ih =>
      have hnext := ih (h.concat b)
      rwa [List.append_assoc] at hnext

omit [DecidableRel continues] in
/-- Elements that all continue the run are part of it. -/
theorem append {run as bs : List α} (h : IsTrailingRun continues run as)
    (hchain : (run ++ bs).IsChain continues) :
    IsTrailingRun continues (run ++ bs) (as ++ bs) := by
  classical
  induction bs generalizing run as with
  | nil => rwa [List.append_nil, List.append_nil]
  | cons b bs ih =>
      have hlast : ∀ last ∈ run.getLast?, continues last b := fun last hlast =>
        (List.isChain_append.mp hchain).2.2 last hlast b rfl
      have hextend : extendRun continues run b = run ++ [b] := if_pos hlast
      have hnext := h.concat b
      rw [hextend] at hnext
      rw [List.append_cons run b bs, List.append_cons as b bs]
      rw [List.append_cons run b bs] at hchain
      exact ih hnext hchain

end IsTrailingRun

/-- What the pass over a list finds is its trailing run. -/
theorem isTrailingRun_trailingRun [DecidableRel continues] (as : List α) :
    IsTrailingRun continues (trailingRun continues as) as :=
  IsTrailingRun.nil.foldl as

end BuduWaf
