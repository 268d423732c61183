import RayTracer.Proofs.Search.Genuine
import RayTracer.Shading.Path

/-! # Paths from mirror to mirror

Shading recurses over what is left of its bounces. `shade_eq_pathColor` takes the recursion apart:
first the path is followed, then the local colours along it are summed up.

What holds of a sighting because it comes out of the search (`Scene.Sees`) holds all along a path.
-/

namespace RayTracer

open Number

namespace Scene

variable {s : Scene} {seen next : Sighting}

/-! ## From bounces to paths -/

theorem exists_mirrorPath_eq_cons (s : Scene) (seen : Sighting) (bounces : ℕ) :
    ∃ rest, s.mirrorPath seen bounces = seen :: rest := by
  cases bounces with
  | zero => exact ⟨[], rfl⟩
  | succ bounces =>
    rw [mirrorPath]
    split
    · exact ⟨[], rfl⟩
    · exact ⟨_, rfl⟩

theorem mirrorPath_of_none (h : s.bounce? seen = none) (bounces : ℕ) :
    s.mirrorPath seen bounces = [seen] := by
  cases bounces with
  | zero => rfl
  | succ bounces => rw [mirrorPath, h]

theorem mirrorPath_of_some (h : s.bounce? seen = some next) (bounces : ℕ) :
    s.mirrorPath seen (bounces + 1) = seen :: s.mirrorPath next bounces := by
  rw [mirrorPath, h]

theorem pathColor_cons_mirrorPath (s : Scene) (seen next : Sighting) (bounces : ℕ) :
    s.pathColor (seen :: s.mirrorPath next bounces) =
      s.localColor seen.ray seen.contact +
        seen.contact.material.reflectivity * s.pathColor (s.mirrorPath next bounces) := by
  obtain ⟨rest, path⟩ := s.exists_mirrorPath_eq_cons next bounces
  rw [path]
  rfl

theorem shade_succ (s : Scene) (seen : Sighting) (bounces : ℕ) :
    s.shade seen.ray seen.contact (bounces + 1) =
      match s.bounce? seen with
      | none => s.localColor seen.ray seen.contact
      | some next =>
        s.localColor seen.ray seen.contact +
          seen.contact.material.reflectivity * s.shade next.ray next.contact bounces := by
  rw [shade, bounce?]
  dsimp only
  by_cases mirror : seen.contact.material.isReflective = true
  · rw [if_pos mirror, if_pos mirror]
    cases s.trace (seen.contact.mirrorRay seen.ray) anyDistance with
    | none => rfl
    | some hit => rfl
  · rw [if_neg mirror, if_neg mirror]

/-- Shading sums up the path. -/
theorem shade_eq_pathColor (s : Scene) (seen : Sighting) (bounces : ℕ) :
    s.shade seen.ray seen.contact bounces = s.pathColor (s.mirrorPath seen bounces) := by
  induction bounces generalizing seen with
  | zero => rfl
  | succ bounces ih =>
    rw [shade_succ]
    cases h : s.bounce? seen with
    | none =>
      rw [mirrorPath_of_none h]
      rfl
    | some next => rw [mirrorPath_of_some h, pathColor_cons_mirrorPath, ← ih]

/-! ## What the search has seen -/

/-- What is seen first along a ray. -/
def sighting? (s : Scene) (ray : Ray) : Option Sighting :=
  (s.trace ray anyDistance).map fun hit => ⟨ray, hit.toContact⟩

theorem rayColor_eq_pathColor (s : Scene) (ray : Ray) (bounces : ℕ) (background : Color) :
    s.rayColor ray bounces background =
      match s.sighting? ray with
      | none => background
      | some seen => s.pathColor (s.mirrorPath seen bounces) := by
  unfold rayColor sighting?
  cases s.trace ray anyDistance with
  | none => rfl
  | some hit => exact s.shade_eq_pathColor ⟨ray, hit.toContact⟩ bounces

/-- A sighting along a computed unit direction that the search confirms. -/
structure Sees (s : Scene) (seen : Sighting) : Prop where
  unit : ∃ d : Vec3, seen.ray.direction = d.normalizeOrZero
  found : s.sighting? seen.ray = some seen

theorem sees_of_sighting? {ray : Ray} {d : Vec3} (unit : ray.direction = d.normalizeOrZero)
    (found : s.sighting? ray = some seen) : s.Sees seen := by
  obtain ⟨hit, -, rfl⟩ := Option.map_eq_some_iff.mp found
  exact ⟨⟨d, unit⟩, found⟩

/-- The shape that is seen. -/
theorem Sees.exists_shape (h : s.Sees seen) : ∃ shape ∈ s.shapes,
    shape.contact? seen.ray anyDistance = some seen.contact ∧
      seen.contact.material = shape.material := by
  obtain ⟨hit, traced, same⟩ := Option.map_eq_some_iff.mp h.found
  obtain ⟨shape, there, contact⟩ := Scene.meets_of_trace (.inl traced)
  have same : hit.toContact = seen.contact := congrArg Sighting.contact same
  rw [same] at contact
  obtain ⟨-, described⟩ := Shape.contact?_eq_some_iff.mp contact
  exact ⟨shape, Array.mem_of_getElem? there, contact, congrArg Contact.material described.symm⟩

theorem bounce?_eq_some_iff : s.bounce? seen = some next ↔
    seen.contact.material.isReflective = true ∧
      s.sighting? (seen.contact.mirrorRay seen.ray) = some next := by
  unfold bounce? sighting?
  split_ifs with mirror
  · simp [mirror]
  · simp [mirror]

theorem Sees.bounce (h : s.bounce? seen = some next) : s.Sees next :=
  sees_of_sighting? rfl (bounce?_eq_some_iff.mp h).2

end Scene

end RayTracer
