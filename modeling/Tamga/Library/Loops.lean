import Mathlib.Logic.Relation

namespace Library.Loops

variable {σ β : Type} {turn : σ → σ ⊕ β} {size : σ → Nat}
  {hsize : ∀ s t, turn s = .inl t → size t < size s} {start s t : σ}

/-- Turn after turn, until one leads out of the loop. -/
def run (turn : σ → σ ⊕ β) (size : σ → Nat)
    (hsize : ∀ s t, turn s = .inl t → size t < size s) (s : σ) : β :=
  match _h : turn s with
  | .inl t => run turn size hsize t
  | .inr result => result
termination_by size s
decreasing_by exact hsize s t _h

/-- The loop comes from one state to another. -/
def Reaches (turn : σ → σ ⊕ β) : σ → σ → Prop :=
  Relation.ReflTransGen fun s t => turn s = .inl t

theorem run_of_inl (h : turn s = .inl t) : run turn size hsize s = run turn size hsize t := by
  rw [run]
  split
  · rename_i other hother
    rw [Sum.inl.inj (hother.symm.trans h)]
  · rename_i hout
    cases hout.symm.trans h

theorem run_of_inr {result : β} (h : turn s = .inr result) :
    run turn size hsize s = result := by
  rw [run]
  split
  · rename_i hnext
    cases hnext.symm.trans h
  · rename_i other hother
    exact Sum.inr.inj (hother.symm.trans h)

/-- What holds at the start and is kept by every turn holds at every point of the loop. -/
theorem Reaches.invariant (h : Reaches turn start s) (inv : σ → Prop) (hstart : inv start)
    (hturn : ∀ s t, inv s → turn s = .inl t → inv t) : inv s := by
  induction h with
  | refl => exact hstart
  | tail _ hstep ih => exact hturn _ _ ih hstep

/-- The result is what the last of these points leads out to. -/
theorem exists_last (start : σ) :
    ∃ last, Reaches turn start last ∧ turn last = .inr (run turn size hsize start) := by
  induction hbound : size start using Nat.strongRecOn generalizing start with
  | ind bound ih =>
      cases h : turn start with
      | inl next =>
          obtain ⟨last, hreaches, hlast⟩ := ih _ (hbound ▸ hsize start next h) next rfl
          rw [run_of_inl h]
          exact ⟨last, hreaches.head h, hlast⟩
      | inr result =>
          rw [run_of_inr h]
          exact ⟨start, .refl, h⟩

end Library.Loops
