import RayTracer.Proofs.Number.Power
import RayTracer.Proofs.Shading.Paths
import RayTracer.Proofs.Surface.Normals

/-! # Channels that are numbers

A channel of a colour is made from a light, a material and two factors that the geometry decides:
the `incidence` of the light and the `gloss` of the highlight. Both are numbers from zero up, but
either can be infinite. So with a finite light and finite materials a channel fails to be a number
in two ways only, a zero times an infinity and a sum of opposite infinities.

* `isNumber_pathColor_iff`: the channel is a number exactly if neither occurs on its path.
* `Shape.Steady`: what keeps both from occurring on a shape, from wherever it is seen.
-/

namespace RayTracer

open Number

/-- What the light gives is finite. Where it stands is left open. -/
def Light.IsFinite (l : Light) : Prop := l.color.IsFinite ∧ l.intensity.isFinite

instance (l : Light) : Decidable l.IsFinite := inferInstanceAs (Decidable (_ ∧ _))

def Material.IsFinite (m : Material) : Prop :=
  m.diffuse.IsFinite ∧ m.specular.IsFinite ∧ m.shininess.isFinite ∧ m.reflectivity.isFinite

instance (m : Material) : Decidable m.IsFinite := inferInstanceAs (Decidable (_ ∧ _))

variable {s : Scene} {seen : Sighting} {shape : Shape} {axis : Axis}

namespace Scene

/-! ## Local colours -/

/-- How much a contact faces the light. -/
def incidence (s : Scene) (c : Contact) : Float32 :=
  maxNum (c.normal.dot (s.light.position - c.point).normalizeOrZero) 0

/-- How much of the light is mirrored to the eye. -/
def gloss (s : Scene) (seen : Sighting) : Float32 :=
  let toLight := (s.light.position - seen.contact.point).normalizeOrZero
  let mirrored := (-toLight.reflect seen.contact.normal).normalizeOrZero
  pow (maxNum ((-seen.ray.direction).normalizeOrZero.dot mirrored) 0)
    seen.contact.material.shininess

/-- Nothing is between a contact and the light. -/
def isLit (s : Scene) (c : Contact) : Bool :=
  let toLight := s.light.position - c.point
  !s.inShadow c.point toLight.normalizeOrZero toLight.length

def diffuseChannel (s : Scene) (seen : Sighting) (axis : Axis) : Float32 :=
  s.incidence seen.contact * s.light.intensity *
    (seen.contact.material.diffuse.along axis * s.light.color.along axis)

def specularChannel (s : Scene) (seen : Sighting) (axis : Axis) : Float32 :=
  s.gloss seen * (seen.contact.material.specular.along axis * s.light.intensity)

theorem along_localColor (s : Scene) (seen : Sighting) (axis : Axis) :
    (s.localColor seen.ray seen.contact).along axis =
      if s.isLit seen.contact then
        ambient * seen.contact.material.diffuse.along axis +
          (s.diffuseChannel seen axis + s.specularChannel seen axis)
      else ambient * seen.contact.material.diffuse.along axis := by
  unfold localColor isLit
  dsimp only
  split_ifs with dark lit lit
  · simp [dark] at lit
  · exact Vec3.along_smul ..
  · rw [diffuseTerm, specularTerm]
    simp only [Vec3.along_add, Vec3.along_smul, Vec3.along_mul, Vec3.along_mul_scalar]
    rfl
  · simp [dark] at lit

/-- In the terms that the light adds to a channel a zero meets an infinity, or they are opposite
infinities. -/
def Breaks (s : Scene) (seen : Sighting) (axis : Axis) : Prop :=
  let material := seen.contact.material
  s.isLit seen.contact ∧
    (Clash (s.incidence seen.contact) s.light.intensity ∨
      Clash (s.incidence seen.contact * s.light.intensity)
        (material.diffuse.along axis * s.light.color.along axis) ∨
      Clash (s.gloss seen) (material.specular.along axis * s.light.intensity) ∨
      Cancel (s.diffuseChannel seen axis) (s.specularChannel seen axis))

instance : Decidable (s.Breaks seen axis) := inferInstanceAs (Decidable (_ ∧ _))

/-- A number from zero up, without a minus sign even if it is zero. -/
theorem isNegative_maxNum_zero (x : Float32) : isNegative (maxNum x 0) = false := by
  obtain zero | ⟨same, above⟩ := maxNum_zero_cases x
  · rw [zero]
    decide
  · rw [same]
    exact isNegative_of_pos above

theorem zero_le_incidence (s : Scene) (c : Contact) : 0 ≤ s.incidence c := zero_le_maxNum_zero _

theorem zero_le_gloss (material : seen.contact.material.IsFinite) : 0 ≤ s.gloss seen := by
  obtain ⟨-, -, shininess, -⟩ := material
  exact zero_le_pow (zero_le_maxNum_zero _) (isNegative_maxNum_zero _)
    (isNumber_of_isFinite shininess)

theorem isFinite_ambient_mul {x : Float32} (h : x.isFinite = true) :
    (ambient * x).isFinite = true := by
  obtain ⟨r, reads⟩ := exists_reads_iff.mpr h
  obtain ⟨a, share, least, most⟩ : ∃ a, Reads ambient a ∧ 0 ≤ a ∧ a ≤ 1 := by
    refine reads_of_mem (by decide) ?_ ?_
    · have above : 0 ≤ ambient := by decide
      exact (zero_le_iff.mp above).2
    · have below : ambient ≤ 1 := by decide
      have bound := ((le_iff _ _).mp below).2.2
      rwa [value_one] at bound
  obtain ⟨number, value⟩ := share.mul reads
  have size : |a * r| ≤ |r| := by
    rw [abs_mul, abs_of_nonneg least]
    exact mul_le_of_le_one_left (abs_nonneg r) most
  obtain ⟨q, product, -⟩ := Bounded.of_rounded number value size reads.stays.abs
  exact exists_reads_iff.mp ⟨q, product⟩

theorem isNumber_localColor_iff (light : s.light.IsFinite)
    (material : seen.contact.material.IsFinite) (axis : Axis) :
    IsNumber ((s.localColor seen.ray seen.contact).along axis) ↔ ¬s.Breaks seen axis := by
  obtain ⟨color, intensity⟩ := light
  have incidence : IsNumber (s.incidence seen.contact) := (zero_le_iff.mp (s.zero_le_incidence _)).1
  have gloss : IsNumber (s.gloss seen) := (zero_le_iff.mp (zero_le_gloss material)).1
  obtain ⟨diffuse, specular, -, -⟩ := material
  have base := isFinite_ambient_mul (diffuse axis)
  rw [along_localColor, Breaks]
  -- all factors are numbers, so only the operations on them can fail
  split_ifs with lit
  · have first := isNumber_mul_of_isFinite (diffuse axis) (color axis)
    have second := isNumber_mul_of_isFinite (specular axis) intensity
    rw [isNumber_add_iff_of_isFinite base, isNumber_add_iff_not_cancel]
    nth_rewrite 1 [diffuseChannel, specularChannel]
    simp only [isNumber_mul_iff_not_clash, incidence, gloss, first, second,
      isNumber_of_isFinite intensity, lit, true_and, not_or, and_assoc]
  · simp [lit, isNumber_of_isFinite base]

/-! ## Paths -/

/-- All along a path neither the terms of the light break a channel, nor does the sum with what is
behind. -/
def Unbroken (s : Scene) (path : List Sighting) (axis : Axis) : Prop :=
  ∀ first rest, first :: rest <:+ path →
    ¬s.Breaks first axis ∧
      ¬Cancel ((s.localColor first.ray first.contact).along axis)
        (first.contact.material.reflectivity * (s.pathColor rest).along axis)

theorem unbroken_singleton : s.Unbroken [seen] axis ↔ ¬s.Breaks seen axis := by
  have last : (s.pathColor []).along axis = 0 := Vec3.along_zero axis
  constructor
  · intro h
    exact (h seen [] (List.suffix_refl _)).1
  · intro h first rest suffix
    obtain same | shorter := List.suffix_cons_iff.mp suffix
    · obtain ⟨rfl, rfl⟩ := List.cons.inj same
      rw [last]
      exact ⟨h, not_cancel_mul_zero _ _⟩
    · cases List.suffix_nil.mp shorter

theorem unbroken_cons {rest : List Sighting} : s.Unbroken (seen :: rest) axis ↔
    (¬s.Breaks seen axis ∧
      ¬Cancel ((s.localColor seen.ray seen.contact).along axis)
        (seen.contact.material.reflectivity * (s.pathColor rest).along axis)) ∧
          s.Unbroken rest axis := by
  constructor
  · intro h
    exact ⟨h seen rest (List.suffix_refl _),
      fun first behind suffix => h first behind (suffix.trans (List.suffix_cons seen rest))⟩
  · rintro ⟨here, behind⟩ first others suffix
    obtain same | shorter := List.suffix_cons_iff.mp suffix
    · obtain ⟨rfl, rfl⟩ := List.cons.inj same
      exact here
    · exact behind first others shorter

theorem Sees.isFinite_material (materials : ∀ shape ∈ s.shapes, shape.material.IsFinite)
    (h : s.Sees seen) :
    seen.contact.material.IsFinite := by
  obtain ⟨shape, there, -, same⟩ := h.exists_shape
  rw [same]
  exact materials shape there

/-- The channel of a path is a number exactly if nothing breaks it on the way. -/
theorem isNumber_pathColor_iff (light : s.light.IsFinite)
    (materials : ∀ shape ∈ s.shapes, shape.material.IsFinite) (sees : s.Sees seen) (bounces : ℕ)
    (axis : Axis) :
    IsNumber ((s.pathColor (s.mirrorPath seen bounces)).along axis) ↔
      s.Unbroken (s.mirrorPath seen bounces) axis := by
  induction bounces generalizing seen with
  | zero =>
    rw [mirrorPath, unbroken_singleton]
    exact isNumber_localColor_iff light (sees.isFinite_material materials) axis
  | succ bounces ih =>
    have material := sees.isFinite_material materials
    have here := isNumber_localColor_iff light material axis
    cases h : s.bounce? seen with
    | none =>
      rw [mirrorPath_of_none h, unbroken_singleton]
      exact here
    | some next =>
      -- the reflectivity of a mirror is positive, so weighting cannot fail, only the sum can
      obtain ⟨mirror, -⟩ := bounce?_eq_some_iff.mp h
      have behind := ih (Sees.bounce h)
      rw [mirrorPath_of_some h, unbroken_cons, ← behind, pathColor_cons_mirrorPath, Vec3.along_add,
        Vec3.along_smul, isNumber_add_iff_not_cancel, here,
        isNumber_mul_iff_of_pos (of_decide_eq_true mirror) material.2.2.2]
      tauto

end Scene

/-! ## Shapes that nothing breaks -/

/-- On a channel nothing is negative and no product of light and material overflows. Where such a
product is zero the geometry is kept in bounds: the normals are not long, the highlight is not
sharp. -/
structure Shape.Steady (shape : Shape) (light : Light) (axis : Axis) : Prop where
  shines : 0 ≤ light.intensity ∧ 0 ≤ light.color.along axis
  reflects : 0 ≤ shape.material.diffuse.along axis ∧ 0 ≤ shape.material.specular.along axis
  diffuse : (shape.material.diffuse.along axis * light.color.along axis).isFinite
  specular : (shape.material.specular.along axis * light.intensity).isFinite
  facing : 0 < light.intensity ∧ 0 < shape.material.diffuse.along axis * light.color.along axis ∨
    shape.IsSolid ∧ light.intensity ≤ 1024
  glossy : 0 < shape.material.specular.along axis * light.intensity ∨
    0 ≤ shape.material.shininess ∧ shape.material.shininess ≤ 32

instance (shape : Shape) (light : Light) (axis : Axis) : Decidable (shape.Steady light axis) :=
  decidable_of_iff (_ ∧ _ ∧ _ ∧ _ ∧ _ ∧ _)
    ⟨fun ⟨shines, reflects, diffuse, specular, facing, glossy⟩ =>
      ⟨shines, reflects, diffuse, specular, facing, glossy⟩,
    fun h => ⟨h.shines, h.reflects, h.diffuse, h.specular, h.facing, h.glossy⟩⟩

namespace Scene

theorem reads_dimmest : Reads 1024 1024 := reads_power (k := 10) (by decide) (by norm_num)

theorem reads_sharpest : Reads 32 32 := reads_power (k := 5) (by decide) (by norm_num)

theorem not_clash_incidence (light : s.light.IsFinite) (steady : shape.Steady s.light axis)
    (sees : s.Sees seen) (contact : shape.contact? seen.ray anyDistance = some seen.contact) :
    ¬Clash (s.incidence seen.contact) s.light.intensity ∧
      ¬Clash (s.incidence seen.contact * s.light.intensity)
        (shape.material.diffuse.along axis * s.light.color.along axis) := by
  obtain ⟨-, finite⟩ := light
  obtain ⟨bright, colored⟩ | ⟨solid, dim⟩ := steady.facing
  · exact ⟨fun clash => not_clash_of_pos bright finite clash.symm,
      fun clash => not_clash_of_pos colored steady.diffuse clash.symm⟩
  · obtain ⟨d, unit⟩ := sees.unit
    have facing : Bounded (15 / 4 * 2 ^ 116) (s.incidence seen.contact) :=
      Shape.bounded_facing contact unit solid s.light.position
    have intensity := bounded_of_le steady.shines.1 dim reads_dimmest
    have stays : Stays (15 / 4 * 2 ^ 116 * 1024) := by
      have :=
        stays_natCast_mul (n := 15 * 2 ^ 20) (e := 104) (by norm_num) (by norm_num) (by norm_num)
      norm_num at this ⊢
      exact this
    have product := facing.mul intensity stays
    exact ⟨not_clash_of_isFinite facing.isFinite finite,
      not_clash_of_isFinite product.isFinite steady.diffuse⟩

/-- Computed unit vectors are so close to unit length that a highlight of moderate shininess stays
finite. -/
theorem isFinite_gloss (least : 0 ≤ seen.contact.material.shininess)
    (most : seen.contact.material.shininess ≤ 32) :
    (s.gloss seen).isFinite = true := by
  obtain ⟨t, shininess, small⟩ := bounded_of_le least most reads_sharpest
  have nonneg := shininess.nonneg least
  unfold gloss
  dsimp only
  generalize (s.light.position - seen.contact.point).normalizeOrZero.reflect seen.contact.normal = w
  obtain ⟨r, cosine, bound⟩ :=
    (Vec3.bounded_dot_normalizeOrZero (-seen.ray.direction) (-w)).maxNum_zero (by norm_num)
  have base := cosine.nonneg (zero_le_maxNum_zero _)
  -- the base is at most 75/16 and the exponent at most 32
  refine isFinite_pow cosine base (isNegative_maxNum_zero _) shininess nonneg ?_
  rw [abs_of_nonneg nonneg] at small
  rw [abs_of_nonneg base] at bound
  obtain low | high := le_or_gt (Real.log r) 0
  · exact (mul_nonpos_of_nonneg_of_nonpos nonneg low).trans (by positivity)
  · have pos : 0 < r := base.lt_of_ne fun zero => by simp [← zero] at high
    calc t * Real.log r ≤ 32 * Real.log (75 / 16) := by gcongr
      _ = Real.log ((75 / 16) ^ 32) := by rw [Real.log_pow]; norm_num
      _ ≤ Real.log (2 ^ 72) := Real.log_le_log (by positivity) (by norm_num)
      _ = 72 * Real.log 2 := by rw [Real.log_pow]; norm_num

theorem not_clash_gloss (steady : shape.Steady s.light axis)
    (same : seen.contact.material = shape.material) :
    ¬Clash (s.gloss seen) (shape.material.specular.along axis * s.light.intensity) := by
  obtain shiny | ⟨least, most⟩ := steady.glossy
  · exact fun clash => not_clash_of_pos shiny steady.specular clash.symm
  · rw [← same] at least most
    exact not_clash_of_isFinite (isFinite_gloss least most) steady.specular

theorem zero_le_ambient : 0 ≤ ambient := by decide

/-- Nothing breaks a channel of what is seen of a steady shape, and it is not negative. -/
theorem zero_le_localColor (light : s.light.IsFinite)
    (materials : ∀ shape ∈ s.shapes, shape.material.IsFinite)
    (steady : ∀ shape ∈ s.shapes, shape.Steady s.light axis) (sees : s.Sees seen) :
    ¬s.Breaks seen axis ∧ 0 ≤ (s.localColor seen.ray seen.contact).along axis := by
  obtain ⟨shape, there, contact, same⟩ := sees.exists_shape
  have steady := steady shape there
  have finite := materials shape there
  have nonnegGloss : 0 ≤ s.gloss seen := zero_le_gloss (sees.isFinite_material materials)
  obtain ⟨apartLight, apartDiffuse⟩ := not_clash_incidence light steady sees contact
  have apartGloss := not_clash_gloss steady same
  -- the terms, factor by factor
  have factor := (zero_le_mul_iff (s.zero_le_incidence seen.contact) steady.shines.1).mpr apartLight
  have product := (zero_le_mul_iff steady.reflects.1 steady.shines.2).mpr
    (not_clash_of_isFinite (finite.1 axis) (light.1 axis))
  have highlight := (zero_le_mul_iff steady.reflects.2 steady.shines.1).mpr
    (not_clash_of_isFinite (finite.2.1 axis) light.2)
  have diffuse : 0 ≤ s.diffuseChannel seen axis := by
    rw [diffuseChannel, same]
    exact (zero_le_mul_iff factor product).mpr apartDiffuse
  have specular : 0 ≤ s.specularChannel seen axis := by
    rw [specularChannel, same]
    exact (zero_le_mul_iff nonnegGloss highlight).mpr apartGloss
  have base : 0 ≤ ambient * shape.material.diffuse.along axis :=
    (zero_le_mul_iff zero_le_ambient steady.reflects.1).mpr
      (not_clash_of_isFinite (by decide) (finite.1 axis))
  constructor
  · rw [Breaks, same]
    rintro ⟨-, clash | clash | clash | opposite⟩
    · exact apartLight clash
    · exact apartDiffuse clash
    · exact apartGloss clash
    · exact not_cancel diffuse specular opposite
  · rw [along_localColor, same]
    split_ifs
    · exact zero_le_add base (zero_le_add diffuse specular)
    · exact base

theorem unbroken_of_steady (light : s.light.IsFinite)
    (materials : ∀ shape ∈ s.shapes, shape.material.IsFinite)
    (steady : ∀ shape ∈ s.shapes, shape.Steady s.light axis) (sees : s.Sees seen) (bounces : ℕ) :
    s.Unbroken (s.mirrorPath seen bounces) axis ∧
      0 ≤ (s.pathColor (s.mirrorPath seen bounces)).along axis := by
  have last {seen : Sighting} (sees : s.Sees seen) : s.Unbroken [seen] axis ∧
      0 ≤ (s.pathColor [seen]).along axis := by
    rw [unbroken_singleton]
    exact zero_le_localColor light materials steady sees
  induction bounces generalizing seen with
  | zero => exact last sees
  | succ bounces ih =>
    cases h : s.bounce? seen with
    | none =>
      rw [mirrorPath_of_none h]
      exact last sees
    | some next =>
      obtain ⟨mirror, -⟩ := bounce?_eq_some_iff.mp h
      have share := of_decide_eq_true mirror
      have finite := (sees.isFinite_material materials).2.2.2
      obtain ⟨unbroken, behind⟩ := ih (Sees.bounce h)
      obtain ⟨whole, here⟩ := zero_le_localColor light materials steady sees
      -- what the mirror adds is not negative either, so no opposite infinities meet in the sum
      have mirrored : 0 ≤ seen.contact.material.reflectivity *
          (s.pathColor (s.mirrorPath next bounces)).along axis :=
        (zero_le_mul_iff (zero_le_of_pos share) behind).mpr (not_clash_of_pos share finite)
      rw [mirrorPath_of_some h, unbroken_cons, pathColor_cons_mirrorPath, Vec3.along_add,
        Vec3.along_smul]
      exact ⟨⟨⟨whole, not_cancel here mirrored⟩, unbroken⟩, zero_le_add here mirrored⟩

end Scene

end RayTracer
