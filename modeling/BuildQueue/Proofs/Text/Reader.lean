import BuildQueue.Text.Reader
import Mathlib.Data.List.TakeWhile

/-!
# Readers on texts put together

What a reader takes from a text that starts with what it looks for, and what it leaves. A row of
readers takes one piece after the other.
-/

namespace BuildQueue

/-- A run of characters of a kind ends where another kind follows. -/
theorem takeWhile_append_of_head? {p : Char → Bool} {cs rest : List Char}
    (hcs : ∀ c ∈ cs, p c = true) (hrest : ∀ c ∈ rest.head?, p c = false) :
    (cs ++ rest).takeWhile p = cs ∧ (cs ++ rest).dropWhile p = rest := by
  rw [List.takeWhile_append_of_pos hcs, List.dropWhile_append_of_pos hcs]
  cases rest with
  | nil => simp
  | cons c rest =>
    have hc : p c = false := hrest c (by simp)
    simp [hc]

namespace Reader

variable {α β : Type} {p : Char → Bool} {cs rest : List Char}

/-- The second of two readers goes on where the first one stopped. -/
theorem bind_of_some {r : Reader α} {a : α} (h : r cs = some (a, rest)) (f : α → Reader β) :
    (r >>= f) cs = f a rest := by
  change (r cs).bind (fun taken ↦ f taken.1 taken.2) = f a rest
  rw [h]
  rfl

theorem satisfy_cons {c : Char} (h : p c = true) : satisfy p (c :: cs) = some (c, cs) := if_pos h

theorem char_cons (c : Char) : char c (c :: cs) = some ((), cs) := by
  change (satisfy (· = c) (c :: cs)).bind (fun taken ↦ some ((), taken.2)) = some ((), cs)
  rw [satisfy_cons (decide_eq_true rfl)]
  rfl

theorem peek?_eq (cs : List Char) : peek? cs = some (cs.head?, cs) := rfl

theorem takeWhile_append (hcs : ∀ c ∈ cs, p c = true) (hrest : ∀ c ∈ rest.head?, p c = false) :
    takeWhile p (cs ++ rest) = some (cs, rest) := by
  obtain ⟨htake, hdrop⟩ := takeWhile_append_of_head? hcs hrest
  rw [takeWhile, htake, hdrop]

theorem skipWhile_of_head? (h : ∀ c ∈ cs.head?, p c = false) : skipWhile p cs = some ((), cs) := by
  obtain ⟨-, hdrop⟩ := takeWhile_append_of_head? (List.forall_mem_nil _) h
  exact congrArg (fun rest ↦ some ((), rest)) hdrop

/-- As many characters are taken as there may be, or all of their kind. -/
theorem some?_append {most : Nat} (hne : cs ≠ []) (hcs : ∀ c ∈ cs, p c = true)
    (hmost : cs.length ≤ most) (hrest : cs.length = most ∨ ∀ c ∈ rest.head?, p c = false) :
    some? p most (cs ++ rest) = some (cs, rest) := by
  have hend : ∀ c ∈ (rest.take (most - cs.length)).head?, p c = false := by
    rcases hrest with hlength | hrest
    · simp [hlength]
    · intro c hc
      rw [List.head?_take] at hc
      split at hc
      · cases hc
      · exact hrest c hc
  obtain ⟨htake, -⟩ := takeWhile_append_of_head? hcs hend
  unfold some?
  rw [List.take_append, List.take_of_length_le hmost, htake]
  cases cs with
  | nil => exact absurd rfl hne
  | cons c cs => simp

end Reader

end BuildQueue
