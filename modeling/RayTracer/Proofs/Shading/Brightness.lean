import RayTracer.Proofs.Number.Increase
import RayTracer.Proofs.Shading.Channels

/-! # More bounces are no darker

Where light and materials take nothing away, every term of a colour is zero or above, so a mirror
only adds to what is seen. `not_shade_lt_shade` compares two numbers of bounces: both follow the
same mirrors, and what is seen in the last one that the fewer bounces reach is not darker with more
of them.

A degenerate direction or an overflow can make a term NaN. The channel is NaN then, which is not
darker.
-/

namespace RayTracer

open Number

/-- No component is below zero; a NaN is not. -/
def Vec3.NonNegative (v : Vec3) : Prop := ∀ axis, ¬v.along axis < 0

instance (v : Vec3) : Decidable v.NonNegative :=
  inferInstanceAs (Decidable (∀ axis, ¬v.along axis < 0))

def Light.NonNegative (l : Light) : Prop := l.color.NonNegative ∧ ¬l.intensity < 0

instance (l : Light) : Decidable l.NonNegative := inferInstanceAs (Decidable (_ ∧ _))

def Material.NonNegative (m : Material) : Prop := m.diffuse.NonNegative ∧ m.specular.NonNegative

instance (m : Material) : Decidable m.NonNegative := inferInstanceAs (Decidable (_ ∧ _))

namespace Scene

variable {s : Scene} {seen next : Sighting} {fewer more : ℕ}

/-! ## Local colours -/

theorem not_diffuseChannel_lt_zero (light : s.light.NonNegative)
    (material : seen.contact.material.NonNegative) (axis : Axis) :
    ¬s.diffuseChannel seen axis < 0 := by
  have incidence : ¬s.incidence seen.contact < 0 := not_lt_zero_of_zero_le (s.zero_le_incidence _)
  exact not_mul_lt_zero (not_mul_lt_zero incidence light.2)
    (not_mul_lt_zero (material.1 axis) (light.1 axis))

theorem not_specularChannel_lt_zero (light : s.light.NonNegative)
    (material : seen.contact.material.NonNegative) (axis : Axis) :
    ¬s.specularChannel seen axis < 0 := by
  have gloss : ¬s.gloss seen < 0 :=
    not_pow_lt_zero (zero_le_maxNum_zero _) (isNegative_maxNum_zero _) _
  exact not_mul_lt_zero gloss (not_mul_lt_zero (material.2 axis) light.2)

/-- The light only adds to the ambient share. -/
theorem not_localColor_lt (light : s.light.NonNegative) (seen : Sighting)
    (material : seen.contact.material.NonNegative) {axis : Axis} {a : Float32}
    (base : ¬ambient * seen.contact.material.diffuse.along axis < a) :
    ¬(s.localColor seen.ray seen.contact).along axis < a := by
  have lightTerms := not_add_lt (not_diffuseChannel_lt_zero light material axis)
    (not_specularChannel_lt_zero light material axis)
  rw [along_localColor]
  split_ifs
  · exact not_add_lt base lightTerms
  · exact base

theorem not_ambient_mul_lt_zero {m : Material} (h : m.NonNegative) (axis : Axis) :
    ¬ambient * m.diffuse.along axis < 0 :=
  not_mul_lt_zero (not_lt_zero_of_zero_le zero_le_ambient) (h.1 axis)

/-! ## Mirrors -/

theorem along_shade_succ (s : Scene) (seen : Sighting) (bounces : ℕ) (axis : Axis) :
    (s.shade seen.ray seen.contact (bounces + 1)).along axis =
      match s.bounce? seen with
      | none => (s.localColor seen.ray seen.contact).along axis
      | some next =>
        (s.localColor seen.ray seen.contact).along axis +
          seen.contact.material.reflectivity *
            (s.shade next.ray next.contact bounces).along axis := by
  rw [shade_succ]
  cases s.bounce? seen with
  | none => rfl
  | some next => exact (Vec3.along_add ..).trans (congrArg _ (Vec3.along_smul ..))

/-- What is seen in a mirror is a shape of the scene. -/
theorem nonNegative_of_bounce? (materials : ∀ shape ∈ s.shapes, shape.material.NonNegative)
    (h : s.bounce? seen = some next) : next.contact.material.NonNegative := by
  obtain ⟨shape, there, -, same⟩ := (Sees.bounce h).exists_shape
  exact same ▸ materials shape there

theorem not_reflectivity_lt_zero (h : s.bounce? seen = some next) :
    ¬seen.contact.material.reflectivity < 0 :=
  not_lt_zero_of_zero_le (zero_le_of_pos (of_decide_eq_true (bounce?_eq_some_iff.mp h).1))

theorem not_shade_lt_zero (light : s.light.NonNegative)
    (materials : ∀ shape ∈ s.shapes, shape.material.NonNegative)
    (own : seen.contact.material.NonNegative) (bounces : ℕ) (axis : Axis) :
    ¬(s.shade seen.ray seen.contact bounces).along axis < 0 := by
  have here {seen : Sighting} (own : seen.contact.material.NonNegative) :
      ¬(s.localColor seen.ray seen.contact).along axis < 0 :=
    not_localColor_lt light _ own (not_ambient_mul_lt_zero own axis)
  induction bounces generalizing seen with
  | zero => exact here own
  | succ bounces ih =>
    rw [along_shade_succ]
    cases h : s.bounce? seen with
    | none => exact here own
    | some next =>
      have behind := ih (nonNegative_of_bounce? materials h)
      exact not_add_lt (here own) (not_mul_lt_zero (not_reflectivity_lt_zero h) behind)

/-- A mirror only adds to the local colour. -/
theorem not_shade_lt (light : s.light.NonNegative)
    (materials : ∀ shape ∈ s.shapes, shape.material.NonNegative) (seen : Sighting) {axis : Axis}
    {a : Float32} (h : ¬(s.localColor seen.ray seen.contact).along axis < a) (bounces : ℕ) :
    ¬(s.shade seen.ray seen.contact bounces).along axis < a := by
  cases bounces with
  | zero => exact h
  | succ bounces =>
    rw [along_shade_succ]
    cases mirror : s.bounce? seen with
    | none => exact h
    | some next =>
      have behind :=
        not_shade_lt_zero light materials (nonNegative_of_bounce? materials mirror) bounces axis
      exact not_add_lt h (not_mul_lt_zero (not_reflectivity_lt_zero mirror) behind)

theorem not_shade_lt_shade (light : s.light.NonNegative)
    (materials : ∀ shape ∈ s.shapes, shape.material.NonNegative) (seen : Sighting)
    (le : fewer ≤ more) (axis : Axis) :
    ¬(s.shade seen.ray seen.contact more).along axis <
      (s.shade seen.ray seen.contact fewer).along axis := by
  induction fewer generalizing seen more with
  | zero => exact not_shade_lt light materials seen (not_lt_self _) more
  | succ fewer ih =>
    obtain ⟨more, rfl⟩ : ∃ n, more = n + 1 := ⟨more - 1, by omega⟩
    rw [along_shade_succ, along_shade_succ]
    -- both follow the same mirror, and one bounce is left less on either side
    cases h : s.bounce? seen with
    | none => exact not_lt_self _
    | some next =>
      have behind := ih next (Nat.le_of_succ_le_succ le)
      exact not_add_lt_add_left _ (not_mul_lt_mul_left (not_reflectivity_lt_zero h) behind)

/-- With more bounces no channel is darker, and with any number of them no channel is below the
ambient share of the contact's own material. Nothing is asked of the reflectivities and the
exponents of the highlights. -/
theorem shade_not_darker (s : Scene) (light : s.light.NonNegative)
    (materials : ∀ shape ∈ s.shapes, shape.material.NonNegative) (ray : Ray) (c : Contact)
    (own : c.material.NonNegative) {fewer more : ℕ} (le : fewer ≤ more) (axis : Axis) :
    ¬(s.shade ray c more).along axis < (s.shade ray c fewer).along axis ∧
      ¬(s.shade ray c fewer).along axis < (ambient * c.material.diffuse).along axis ∧
      ¬(s.shade ray c more).along axis < (ambient * c.material.diffuse).along axis := by
  have here : ¬(s.localColor ray c).along axis < (ambient * c.material.diffuse).along axis := by
    rw [Vec3.along_smul]
    exact not_localColor_lt light ⟨ray, c⟩ own (not_lt_self _)
  have base (bounces : ℕ) := not_shade_lt light materials ⟨ray, c⟩ here bounces
  exact ⟨not_shade_lt_shade light materials ⟨ray, c⟩ le axis, base fewer, base more⟩

/-- A mirror with a red sphere behind the eye: the second bounce adds red. -/
theorem shade_not_darker_mirror :
    let mirror : Material := .ofParts (.splat 0.2) .zero 32 1
    let red : Material := .ofParts ⟨1, 0, 0⟩ .zero 32 0
    let s :=
      ((lit (.white ⟨0, 3, 5⟩ 1)).add (.sphere (.around .zero 1 mirror))).add
        (.sphere (.around ⟨0, 0, 10⟩ 1 red))
    let ray : Ray := ⟨⟨0, 0, 5⟩, ⟨0, 0, -1⟩⟩
    let c : Contact := ⟨⟨0, 0, 1⟩, ⟨0, 0, 1⟩, 4, true, mirror⟩
    s.light.NonNegative ∧ (∀ shape ∈ s.shapes, shape.material.NonNegative) ∧
      c.material.NonNegative ∧
      (∀ axis, ¬(s.shade ray c 1).along axis < (s.shade ray c 0).along axis) ∧
      (s.shade ray c 0).x < (s.shade ray c 1).x := by
  intro mirror red s ray c
  have light : s.light.NonNegative := by decide +kernel
  have materials : ∀ shape ∈ s.shapes, shape.material.NonNegative := by decide +kernel
  have own : c.material.NonNegative := by decide +kernel
  refine ⟨light, materials, own, fun axis => ?_, by decide +kernel⟩
  exact (shade_not_darker s light materials ray c own (Nat.zero_le 1) axis).1

end Scene

end RayTracer
