import Mathlib.Algebra.Ring.Periodic
import Mathlib.Data.Nat.Periodic
import RayTracer.Random.AxisStream

/-! # Draws from a keystream

A draw passes over the words that are refused. How many these are is not known in advance, but all
words that a number of draws read give the axes that are drawn, and no others
(`AxisStream.exists_take_eq_accepted`).

A draw looks at one period of the keystream. After that the keystream starts over, so there is
nothing to draw only if no word gives an axis at all (`AxisStream.firstFrom?_period_eq_none_iff`),
and a draw would go on for ever.
-/

namespace RayTracer.Random

variable {key : Key} {words position : ℕ}

theorem keystream_periodic (key : Key) : Function.Periodic (keystream key) period := by
  intro position
  have block : UInt64.ofNat ((position + period) / 8) = UInt64.ofNat (position / 8) := by
    rw [← UInt64.toNat_inj, UInt64.toNat_ofNat', UInt64.toNat_ofNat']
    unfold period UInt64.size
    omega
  have word : (position + period) % 8 = position % 8 := by
    unfold period
    omega
  simp only [keystream, block, word]

/-- The axes that the words from a position on give. -/
def accepted (key : Key) (position words : ℕ) : List Axis :=
  (List.range' position words).filterMap fun n => axisOfWord? (keystream key n)

theorem accepted_succ (key : Key) (position words : ℕ) :
    accepted key position (words + 1) =
      (axisOfWord? (keystream key position)).toList ++ accepted key (position + 1) words := by
  rw [accepted, List.range'_succ, List.filterMap_cons]
  cases axisOfWord? (keystream key position) <;> rfl

theorem accepted_add (key : Key) (position first last : ℕ) :
    accepted key position (first + last) =
      accepted key position first ++ accepted key (position + first) last := by
  rw [accepted, ← List.range'_append_1, List.filterMap_append]
  rfl

namespace AxisStream

/-! ## One draw -/

/-- The words that a draw reads give the axis that it draws, and no other one. -/
theorem accepted_of_firstFrom? {axis : Axis} {after : ℕ}
    (found : firstFrom? key words position = some (axis, after)) :
    ∃ read, after = position + read ∧ accepted key position read = [axis] := by
  induction words generalizing position with
  | zero => cases found
  | succ words ih =>
    rw [firstFrom?] at found
    cases first : axisOfWord? (keystream key position) with
    | none =>
      rw [first] at found
      obtain ⟨read, rfl, axes⟩ := ih found
      refine ⟨read + 1, by omega, ?_⟩
      rw [accepted_succ, first, axes]
      rfl
    | some axis' =>
      rw [first] at found
      cases found
      refine ⟨1, rfl, ?_⟩
      rw [accepted_succ, first]
      rfl

theorem firstFrom?_eq_none_iff :
    firstFrom? key words position = none ↔
      ∀ n < words, axisOfWord? (keystream key (position + n)) = none := by
  induction words generalizing position with
  | zero => simp [firstFrom?]
  | succ words ih =>
    rw [Nat.forall_lt_succ_left, Nat.add_zero, firstFrom?]
    cases first : axisOfWord? (keystream key position) with
    | none =>
      simp only [ih, true_and, Nat.add_assoc, Nat.add_comm 1]
    | some axis => simp

/-- Nothing is drawn only if every word of the keystream is refused. -/
theorem firstFrom?_period_eq_none_iff :
    firstFrom? key period position = none ↔ ∀ n, axisOfWord? (keystream key n) = none := by
  rw [firstFrom?_eq_none_iff]
  refine ⟨fun refused n => ?_, fun refused n _ => refused (position + n)⟩
  -- within a period from the position on the word comes again
  obtain ⟨m, within, again⟩ : ∃ m < period, (position + m) % period = n % period := by
    refine ⟨(n + (period - position % period)) % period, Nat.mod_lt _ (by decide), ?_⟩
    unfold period UInt64.size
    omega
  have word : keystream key (position + m) = keystream key n := by
    rw [← (keystream_periodic key).map_mod_nat, again, (keystream_periodic key).map_mod_nat]
  rw [← word]
  exact refused m within

/-! ## Draws in a row -/

/-- The stream once `n` axes have been drawn. -/
def after : (n : ℕ) → AxisStream → AxisStream
  | 0, s => s
  | n + 1, s => after n s.next.2

/-- Unless all words are refused, the axes that are drawn are those of the words that have been
read. -/
theorem exists_take_eq_accepted (s : AxisStream)
    (gives : ∃ n, axisOfWord? (keystream s.key n) ≠ none) (n : ℕ) :
    ∃ read, s.after n = ⟨s.key, s.position + read⟩ ∧ s.take n = accepted s.key s.position read := by
  induction n generalizing s with
  | zero => exact ⟨0, rfl, rfl⟩
  | succ n ih =>
    cases drawn : firstFrom? s.key period s.position with
    | none =>
      obtain ⟨m, given⟩ := gives
      exact absurd (firstFrom?_period_eq_none_iff.mp drawn m) given
    | some result =>
      obtain ⟨axis, position⟩ := result
      obtain ⟨first, rfl, axes⟩ := accepted_of_firstFrom? drawn
      have next : s.next = (axis, ⟨s.key, s.position + first⟩) := by rw [AxisStream.next, drawn]
      obtain ⟨rest, stream, later⟩ := ih ⟨s.key, s.position + first⟩ gives
      refine ⟨first + rest, ?_, ?_⟩
      · rw [after, next, stream, Nat.add_assoc]
      · rw [take, next, later, accepted_add, axes]
        rfl

end AxisStream

end RayTracer.Random
