import Mathlib.Data.List.Basic
import Tamga.Library.Loops

namespace Library.ChunkedBody

open Library.Loops

variable {α ε : Type}

/-- Where the loop stands: what is in the buffer, and what is still to come. -/
structure Point (α : Type) where
  body : List α
  rest : List (List α)

def Point.bytes (point : Point α) : List α := point.body ++ point.rest.flatten

/-- One turn of the loop: a chunk is added, unless it would take the buffer over the
limit.  `failure` is what stands at the end of the stream in place of an end. -/
def addChunk (limit : Nat) (tooLarge : ε) (failure : Option ε) :
    Point α → Point α ⊕ Except ε (List α)
  | ⟨body, []⟩ =>
      match failure with
      | some e => .inr (.error e)
      | none => .inr (.ok body)
  | ⟨body, chunk :: rest⟩ =>
      if body.length + chunk.length > limit then .inr (.error tooLarge)
      else .inl ⟨body ++ chunk, rest⟩

variable {limit : Nat} {tooLarge : ε} {failure : Option ε} {point next : Point α}

theorem addChunk_eq_inl_iff : addChunk limit tooLarge failure point = .inl next ↔
    ∃ chunk, point.rest = chunk :: next.rest ∧ next.body = point.body ++ chunk ∧
      next.body.length ≤ limit := by
  obtain ⟨body, rest⟩ := point
  obtain ⟨body', rest'⟩ := next
  cases rest with
  | nil => cases failure <;> simp [addChunk]
  | cons chunk rest =>
      rw [addChunk]
      split
      · rename_i hover
        refine iff_of_false (by simp) ?_
        rintro ⟨_, ⟨⟩, hbody, hfits⟩
        rw [hbody, List.length_append] at hfits
        exact absurd hover (Nat.not_lt_of_le hfits)
      · rename_i hfits
        constructor
        · rintro ⟨⟩
          exact ⟨chunk, rfl, rfl, by rw [List.length_append]; omega⟩
        · rintro ⟨_, ⟨⟩, hbody, -⟩
          dsimp only at hbody
          rw [hbody]

theorem length_rest_lt (h : addChunk limit tooLarge failure point = .inl next) :
    next.rest.length < point.rest.length := by
  obtain ⟨chunk, hrest, -⟩ := addChunk_eq_inl_iff.mp h
  rw [hrest, List.length_cons]
  exact Nat.lt_succ_self _

end Library.ChunkedBody
