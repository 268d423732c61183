import RayTracer.Proofs.Number.Opposite
import RayTracer.Proofs.Search.Walk

/-! # Hits are genuine

Whichever way a scene is searched, a hit is what the object that it names writes when it is tested
alone over the whole range (`Meets`). The rest follows from how a shape describes a contact.

The non-trivial ingredient is the normal. It is turned by the sign of a rounded dot product, and
what is claimed is the sign of another one, with the turned normal. `Vec3.opposite_dot_neg` ties the
two together.
-/

namespace RayTracer

open Number

/-- Turning a vector round turns the sign of its dot products. -/
theorem Vec3.opposite_dot_neg (d n : Vec3) : Opposite (d.dot (-n)) (d.dot n) := by
  have term (a b : Float32) : Opposite (a * -b) (a * b) := (opposite_neg b).mul_left a
  exact ((term d.x n.x).add (term d.y n.y)).add (term d.z n.z)

/-- A turned normal never points along the ray. -/
theorem Contact.not_pos_dot_turned (c : Contact) (ray : Ray) (outward : Vec3) :
    ¬0 < ray.direction.dot (c.turned ray outward).normal := by
  unfold turned
  dsimp only
  by_cases front : ray.direction.dot outward < 0
  · rw [decide_eq_true front, if_pos rfl]
    intro back
    rw [lt_iff] at front back
    exact lt_asymm front.2.2 back.2.2
  · rw [decide_eq_false front, if_neg Bool.false_ne_true,
      (ray.direction.opposite_dot_neg outward).pos_iff]
    exact front

variable {shapes : Array Shape} {ray : Ray} {range : Interval}

/-- What a search carries is a hit of the whole range. -/
theorem IsBest.meets {tested : ℕ → Prop} {hit : Hit} {best : Option Hit}
    (inv : IsBest shapes ray range tested best) (found : best = some hit) :
    Meets shapes ray range hit := by
  subst found
  exact inv.1

theorem Scene.meets_of_trace {scene : Scene} {hit : Hit}
    (found : scene.trace ray range = some hit ∨ scene.traceLinear ray range = some hit) :
    Meets scene.shapes ray range hit := by
  have linear (found : scene.traceLinear ray range = some hit) : Meets scene.shapes ray range hit :=
    isBest_scan.meets found
  obtain found | found := found
  · unfold trace at found
    split at found
    · exact linear found
    · exact (isBest_trace _).meets found
  · exact linear found

/-- A hit that a scene answers with, with or without a hierarchy, is what the object that it names
writes over any hit when it is tested alone over the whole range. Its parameter lies in the range,
its point is that of the ray at the parameter, its material that of the object. Its normal is the
outward one if the ray runs against that, and the opposite if not, so it never points along the ray.
The outward normal of a sphere is the point less the center over the radius, that of a plane is
everywhere the same. -/
theorem trace_genuine (scene : Scene) (ray : Ray) (range : Interval) (hit : Hit)
    (found : scene.trace ray range = some hit ∨ scene.traceLinear ray range = some hit) :
    hit.object < scene.size ∧ ∃ s, scene.shapes[hit.object]? = some s ∧
      s.contact? ray range = some hit.toContact ∧
      (∀ record : Hit, s.probe ray range record = (true, { hit with object := record.object })) ∧
      range.contains hit.t = true ∧ IsNumber hit.t ∧
      hit.point = ray.pointAt hit.t ∧ hit.material = s.material ∧
      ¬ray.direction.dot hit.normal > 0 ∧
      (hit.frontFace = true ↔ ray.direction.dot (s.outwardNormal hit.point) < 0) ∧
      (hit.normal = if hit.frontFace then s.outwardNormal hit.point
        else -s.outwardNormal hit.point) ∧
      (∀ ball, s = .sphere ball →
        s.outwardNormal hit.point = (hit.point - ball.center) / ball.radius) ∧
      ∀ plane, s = .plane plane → s.outwardNormal hit.point = plane.normal := by
  have meets := Scene.meets_of_trace found
  obtain ⟨s, there, contact⟩ := meets
  refine ⟨Meets.inside ⟨s, there, contact⟩, s, there, contact, fun record => ?_,
    Meets.contains ⟨s, there, contact⟩, Meets.isNumber ⟨s, there, contact⟩, ?_⟩
  · rw [Shape.probe, contact]
    rfl
  · obtain ⟨-, described⟩ := Shape.contact?_eq_some_iff.mp contact
    have point : hit.point = ray.pointAt hit.t := by
      rw [← described]
      rfl
    refine ⟨point, ?_, ?_, ?_, ?_, ?_, ?_⟩
    · rw [← described]
      rfl
    · rw [← described]
      exact Contact.not_pos_dot_turned _ _ _
    · rw [point, ← described]
      exact decide_eq_true_iff
    · rw [point, ← described]
      rfl
    · rintro ball rfl
      rfl
    · rintro plane rfl
      rfl

/-- From inside a sphere that stands on a floor its far side is met first, and the normal is turned
inwards. A ray down onto the floor keeps the normal of the floor. The scene has its hierarchy. -/
theorem trace_genuine_inside :
    let ball := Sphere.around ⟨0, 1, 0⟩ 1 default
    let floor := Plane.through .zero .unitY default
    let shapes := #[.sphere ball, .plane floor]
    let range : Interval := ⟨0, infinity⟩
    ∃ built : Scene, (⟨shapes, none, default⟩ : Scene).build .longest = .ok built ∧
      (∃ hit, built.trace ⟨⟨0, 1, 0⟩, .unitZ⟩ range = some hit ∧ hit.object = 0 ∧
        range.contains hit.t = true ∧ hit.frontFace = false ∧
        hit.normal = -((hit.point - ball.center) / ball.radius) ∧
        ¬Vec3.unitZ.dot hit.normal > 0) ∧
      ∃ hit, built.trace ⟨⟨3, 1, 0⟩, ⟨0, -1, 0⟩⟩ range = some hit ∧ hit.object = 1 ∧
        range.contains hit.t = true ∧ hit.frontFace = true ∧ hit.normal = floor.normal ∧
        ¬(⟨0, -1, 0⟩ : Vec3).dot hit.normal > 0 := by
  intro ball floor shapes range
  obtain ⟨axis, two⟩ := Hierarchy.ofShapes_two (.sphere ball) (.plane floor) .longest
  let tree := Hierarchy.pair axis ⟨0, ball.box⟩ ⟨1, Plane.bounds⟩
  let built : Scene := ⟨shapes, some tree, default⟩
  -- which object is met from which side is computed, for every axis that the branch may have
  have view (ray : Ray) (object : ℕ) (front : Bool) (s : Shape) (there : shapes[object]? = some s)
      (seen : (built.trace ray range).map (fun hit => (hit.object, hit.frontFace)) =
        some (object, front)) :
      ∃ hit, built.trace ray range = some hit ∧ hit.object = object ∧
        range.contains hit.t = true ∧ hit.frontFace = front ∧
        (hit.normal = if front then s.outwardNormal hit.point else -s.outwardNormal hit.point) ∧
        ¬ray.direction.dot hit.normal > 0 := by
    obtain ⟨hit, found, same⟩ := Option.map_eq_some_iff.mp seen
    obtain ⟨rfl, rfl⟩ := Prod.mk.inj same
    obtain ⟨-, s', there', -, -, contains, -, -, -, against, -, normal, -, -⟩ :=
      trace_genuine built ray range hit (.inl found)
    obtain rfl : s = s' := Option.some.inj (there.symm.trans there')
    exact ⟨hit, found, rfl, contains, rfl, normal, against⟩
  refine ⟨built, ?_, ?_, ?_⟩
  · rw [Scene.build, two]
    rfl
  · obtain ⟨hit, found, object, contains, back, normal, against⟩ :=
      view ⟨⟨0, 1, 0⟩, .unitZ⟩ 0 false (.sphere ball) rfl (by cases axis <;> decide +kernel)
    rw [if_neg Bool.false_ne_true, Shape.outwardNormal, Sphere.outwardNormal] at normal
    exact ⟨hit, found, object, contains, back, normal, against⟩
  · obtain ⟨hit, found, object, contains, front, normal, against⟩ :=
      view ⟨⟨3, 1, 0⟩, ⟨0, -1, 0⟩⟩ 1 true (.plane floor) rfl (by cases axis <;> decide +kernel)
    rw [if_pos rfl, Shape.outwardNormal] at normal
    exact ⟨hit, found, object, contains, front, normal, against⟩

end RayTracer
