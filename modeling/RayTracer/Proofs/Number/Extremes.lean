import RayTracer.Proofs.Number.Opposite

/-! # The extremes of a list

`minNum` and `maxNum` pass over NaN and take either of two equal zeros, so how a list is folded into
its least number decides about the sign of a zero and about nothing else. Instead of laws for every
way to fold, `IsExtreme` says which numbers can come out: some element that no number of the list is
ahead of.

* `IsExtreme.alike`: a list has one extreme, up to the sign of a zero.
* `IsExtreme.of_mem_iff`: order and repetitions make no difference.
* `IsExtreme.append`: the extreme of two lists is the better one of theirs.
-/

namespace RayTracer.Number

variable {x y u v a b : Float32} {l l' : List Float32}

/-! ## Equal up to the sign of a zero -/

/-- Equal numbers, where the two zeros are equal, or NaN twice. -/
def Alike (x y : Float32) : Prop := (x == y) = true ∨ x.isNaN = true ∧ y.isNaN = true

theorem alike_iff : Alike x y ↔ (IsNumber x ↔ IsNumber y) ∧ value x = value y := by
  constructor
  · rintro (same | ⟨hx, hy⟩)
    · obtain ⟨hx, hy, values⟩ := (beq_iff x y).mp same
      exact ⟨iff_of_true hx hy, values⟩
    · refine ⟨iff_of_false (not_isNumber hx) (not_isNumber hy), ?_⟩
      rw [value_of_not_isNumber (not_isNumber hx), value_of_not_isNumber (not_isNumber hy)]
  · rintro ⟨same, values⟩
    obtain hx | hx := isNumber_or_isNaN x
    · exact .inl ((beq_iff x y).mpr ⟨hx, same.mp hx, values⟩)
    · exact .inr ⟨hx, (isNumber_or_isNaN y).resolve_left fun hy => not_isNumber hx (same.mpr hy)⟩

@[refl] theorem Alike.refl (x : Float32) : Alike x x := alike_iff.mpr ⟨.rfl, rfl⟩

theorem Alike.symm (h : Alike x y) : Alike y x := by
  rw [alike_iff] at h ⊢
  exact ⟨h.1.symm, h.2.symm⟩

theorem Alike.trans {z : Float32} (h : Alike x y) (h' : Alike y z) : Alike x z := by
  rw [alike_iff] at h h' ⊢
  exact ⟨h.1.trans h'.1, h.2.trans h'.2⟩

theorem Alike.isNumber_iff (h : Alike x y) : IsNumber x ↔ IsNumber y := (alike_iff.mp h).1

theorem Alike.value_eq (h : Alike x y) : value x = value y := (alike_iff.mp h).2

theorem alike_of_not_isNumber (hx : ¬IsNumber x) (hy : ¬IsNumber y) : Alike x y :=
  .inr ⟨(isNumber_or_isNaN x).resolve_left hx, (isNumber_or_isNaN y).resolve_left hy⟩

theorem Alike.lt_iff (left : Alike x y) (right : Alike u v) : x < u ↔ y < v := by
  rw [Number.lt_iff, Number.lt_iff, left.isNumber_iff, left.value_eq, right.isNumber_iff,
    right.value_eq]

theorem Alike.add (left : Alike x y) (right : Alike u v) : Alike (x + u) (y + v) := by
  have same : IsNumber (x + u) ↔ IsNumber (y + v) := by
    rw [add_isNumber_iff, add_isNumber_iff, left.isNumber_iff, left.value_eq, right.isNumber_iff,
      right.value_eq]
  refine alike_iff.mpr ⟨same, ?_⟩
  by_cases number : IsNumber (x + u)
  · rw [value_add number, value_add (same.mp number), left.value_eq, right.value_eq]
  · rw [value_of_not_isNumber number, value_of_not_isNumber fun h => number (same.mpr h)]

theorem Alike.sub (left : Alike x y) (right : Alike u v) : Alike (x - u) (y - v) := by
  have same : IsNumber (x - u) ↔ IsNumber (y - v) := by
    rw [sub_isNumber_iff, sub_isNumber_iff, left.isNumber_iff, left.value_eq, right.isNumber_iff,
      right.value_eq]
  refine alike_iff.mpr ⟨same, ?_⟩
  by_cases number : IsNumber (x - u)
  · rw [value_sub number, value_sub (same.mp number), left.value_eq, right.value_eq]
  · rw [value_of_not_isNumber number, value_of_not_isNumber fun h => number (same.mpr h)]

/-! ## Extremes -/

/-- An order of the numbers, up to the sign of a zero, in which NaN has no place. -/
structure Orders (before : Float32 → Float32 → Prop) : Prop where
  number {x y : Float32} : before x y → IsNumber x
  of_alike {x y : Float32} : IsNumber x → Alike x y → before x y
  trans {x y z : Float32} : before x y → before y z → before x z
  alike {x y : Float32} : before x y → before y x → Alike x y

theorem orders_le : Orders (· ≤ ·) where
  number h := ((le_iff _ _).mp h).1
  of_alike number h := (le_iff _ _).mpr ⟨number, h.isNumber_iff.mp number, h.value_eq.le⟩
  trans := number_le_trans
  alike h h' := by
    obtain ⟨hx, hy, below⟩ := (le_iff _ _).mp h
    exact .inl ((beq_iff _ _).mpr ⟨hx, hy, below.antisymm ((le_iff _ _).mp h').2.2⟩)

theorem orders_ge : Orders (· ≥ ·) where
  number h := ((le_iff _ _).mp h).2.1
  of_alike number h := orders_le.of_alike (h.isNumber_iff.mp number) h.symm
  trans h h' := number_le_trans h' h
  alike h h' := orders_le.alike h' h

/-- One of the list, up to the sign of a zero, that is before each number in it. So NaN is an
extreme only of a list that holds nothing else. -/
def IsExtreme (before : Float32 → Float32 → Prop) (l : List Float32) (m : Float32) : Prop :=
  (∃ x ∈ l, Alike m x) ∧ ∀ x ∈ l, IsNumber x → before m x

/-- The least number of a list, where NaN counts as missing. -/
def IsLeastOf : List Float32 → Float32 → Prop := IsExtreme (· ≤ ·)

/-- The greatest number of a list, where NaN counts as missing. -/
def IsGreatestOf : List Float32 → Float32 → Prop := IsExtreme (· ≥ ·)

section

variable {before : Float32 → Float32 → Prop} (orders : Orders before)

include orders

theorem isExtreme_singleton (x : Float32) : IsExtreme before [x] x := by
  refine ⟨⟨x, List.mem_singleton_self x, .refl x⟩, fun y mem number => ?_⟩
  obtain rfl := List.mem_singleton.mp mem
  exact orders.of_alike number (.refl y)

theorem IsExtreme.append {m : Float32} (left : IsExtreme before l a) (right : IsExtreme before l' b)
    (either : m = a ∨ m = b) (first : IsNumber a → before m a) (second : IsNumber b → before m b) :
    IsExtreme before (l ++ l') m := by
  refine ⟨?_, fun x mem number => ?_⟩
  · obtain rfl | rfl := either
    · obtain ⟨x, mem, same⟩ := left.1
      exact ⟨x, List.mem_append_left _ mem, same⟩
    · obtain ⟨x, mem, same⟩ := right.1
      exact ⟨x, List.mem_append_right _ mem, same⟩
  · obtain inLeft | inRight := List.mem_append.mp mem
    · have ahead := left.2 x inLeft number
      exact orders.trans (first (orders.number ahead)) ahead
    · have ahead := right.2 x inRight number
      exact orders.trans (second (orders.number ahead)) ahead

/-- An extreme that is a number is before every other one, which then is a number too. -/
theorem IsExtreme.ahead (h : IsExtreme before l a) (h' : IsExtreme before l b)
    (number : IsNumber a) :
    before b a := by
  obtain ⟨x, mem, same⟩ := h.1
  have numberX := same.isNumber_iff.mp number
  exact orders.trans (h'.2 x mem numberX) (orders.of_alike numberX same.symm)

theorem IsExtreme.alike (h : IsExtreme before l a) (h' : IsExtreme before l b) : Alike a b := by
  by_cases number : IsNumber a
  · have ahead := h.ahead orders h' number
    exact orders.alike (h'.ahead orders h (orders.number ahead)) ahead
  · refine alike_of_not_isNumber number fun numberB => number ?_
    exact orders.number (h'.ahead orders h numberB)

/-- What is behind a number of the list does not count. -/
theorem IsExtreme.of_cons {e : Float32} (h : IsExtreme before (e :: l) a) (mem : b ∈ l)
    (ahead : before b e) :
    IsExtreme before l a := by
  obtain ⟨⟨x, found, same⟩, first⟩ := h
  refine ⟨?_, fun y inside => first y (List.mem_cons_of_mem _ inside)⟩
  obtain rfl | inside := List.mem_cons.mp found
  · have forth := first b (List.mem_cons_of_mem _ mem) (orders.number ahead)
    have back :=
      orders.trans ahead (orders.of_alike (same.isNumber_iff.mp (orders.number forth)) same.symm)
    exact ⟨b, mem, orders.alike forth back⟩
  · exact ⟨x, inside, same⟩

omit orders in
theorem IsExtreme.of_mem_iff (h : IsExtreme before l a) (same : ∀ x, x ∈ l ↔ x ∈ l') :
    IsExtreme before l' a := by
  simp only [IsExtreme, same] at h
  exact h

end

/-! ## The smaller and the larger of two -/

theorem minNum_eq_or (a b : Float32) : minNum a b = a ∨ minNum a b = b := by
  unfold minNum
  split_ifs
  · exact .inr rfl
  · exact .inl rfl
  · exact .inl rfl
  · exact .inr rfl

theorem maxNum_eq_or (a b : Float32) : maxNum a b = a ∨ maxNum a b = b := by
  unfold maxNum
  split_ifs
  · exact .inr rfl
  · exact .inl rfl
  · exact .inl rfl
  · exact .inr rfl

theorem minNum_le (a b : Float32) :
    (IsNumber a → minNum a b ≤ a) ∧ (IsNumber b → minNum a b ≤ b) := by
  constructor
  · intro ha
    obtain hb | hb := isNumber_or_isNaN b
    · exact ((le_minNum_iff ha hb).mp (orders_le.of_alike (isNumber_minNum hb) (.refl _))).1
    · rw [minNum_of_isNaN_right ha hb]
      exact orders_le.of_alike ha (.refl a)
  · intro hb
    obtain ha | ha := isNumber_or_isNaN a
    · exact ((le_minNum_iff ha hb).mp (orders_le.of_alike (isNumber_minNum hb) (.refl _))).2
    · rw [minNum_of_isNaN_left b ha]
      exact orders_le.of_alike hb (.refl b)

theorem le_maxNum (a b : Float32) :
    (IsNumber a → a ≤ maxNum a b) ∧ (IsNumber b → b ≤ maxNum a b) := by
  constructor
  · intro ha
    obtain hb | hb := isNumber_or_isNaN b
    · exact ((maxNum_le_iff ha hb).mp (orders_le.of_alike (isNumber_maxNum hb) (.refl _))).1
    · rw [maxNum_of_isNaN_right ha hb]
      exact orders_le.of_alike ha (.refl a)
  · intro hb
    obtain ha | ha := isNumber_or_isNaN a
    · exact ((maxNum_le_iff ha hb).mp (orders_le.of_alike (isNumber_maxNum hb) (.refl _))).2
    · rw [maxNum_of_isNaN_left b ha]
      exact orders_le.of_alike hb (.refl b)

theorem value_infinity : value infinity = ⊤ := rfl

theorem value_neg_infinity : value (-infinity) = ⊥ := by
  rw [value_neg, value_infinity, EReal.neg_top]

/-- No number is above the upper infinity. -/
theorem alike_minNum_infinity (number : IsNumber x) : Alike (minNum x infinity) x := by
  have top : IsNumber infinity := by decide
  refine alike_iff.mpr ⟨iff_of_true (isNumber_minNum top) number, ?_⟩
  rw [value_minNum number top, value_infinity, min_top_right]

/-- No number is below the lower infinity. -/
theorem alike_maxNum_neg_infinity (number : IsNumber x) : Alike (maxNum x (-infinity)) x := by
  have bot : IsNumber (-infinity) := by decide
  refine alike_iff.mpr ⟨iff_of_true (isNumber_maxNum bot) number, ?_⟩
  rw [value_maxNum number bot, value_neg_infinity, max_bot_right]

theorem IsLeastOf.minNum (left : IsLeastOf l a) (right : IsLeastOf l' b) :
    IsLeastOf (l ++ l') (minNum a b) :=
  IsExtreme.append orders_le left right (minNum_eq_or a b) (minNum_le a b).1 (minNum_le a b).2

theorem IsGreatestOf.maxNum (left : IsGreatestOf l a) (right : IsGreatestOf l' b) :
    IsGreatestOf (l ++ l') (maxNum a b) :=
  IsExtreme.append orders_ge left right (maxNum_eq_or a b) (le_maxNum a b).1 (le_maxNum a b).2

theorem alike_minNum_comm (a b : Float32) : Alike (minNum a b) (minNum b a) := by
  have one := IsLeastOf.minNum (isExtreme_singleton orders_le a) (isExtreme_singleton orders_le b)
  have other := IsLeastOf.minNum (isExtreme_singleton orders_le b) (isExtreme_singleton orders_le a)
  exact one.alike orders_le (other.of_mem_iff fun _ => (List.Perm.swap a b []).mem_iff)

theorem alike_maxNum_comm (a b : Float32) : Alike (maxNum a b) (maxNum b a) := by
  have one :=
    IsGreatestOf.maxNum (isExtreme_singleton orders_ge a) (isExtreme_singleton orders_ge b)
  have other :=
    IsGreatestOf.maxNum (isExtreme_singleton orders_ge b) (isExtreme_singleton orders_ge a)
  exact one.alike orders_ge (other.of_mem_iff fun _ => (List.Perm.swap a b []).mem_iff)

end RayTracer.Number
