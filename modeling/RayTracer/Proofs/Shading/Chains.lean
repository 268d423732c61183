import Mathlib.Data.ENat.Lattice
import RayTracer.Proofs.Shading.Paths

/-! # Mirror chains

`bounces?` follows the light from mirror to mirror and asks for no number of bounces in advance.
What a single bounce does is spelled out in `bounce?_eq_some_iff_reflects`. A chain may go on for
ever, so the number of bounces (`bounceCount`) may be infinite. A path cuts it off:
`getElem?_mirrorPath` says that what is on a path is what `bounces?` finds, and `length_mirrorPath`
where the path ends.
-/

namespace RayTracer

namespace Scene

variable {s : Scene} {seen next : Sighting} {n m : ℕ}

/-! ## Bounces -/

/-- A bounce takes a mirror. The direction is reflected about the normal and normalised, the ray
starts off the point along it, and what it meets from there on is seen next. -/
theorem bounce?_eq_some_iff_reflects : s.bounce? seen = some next ↔
    0 < seen.contact.material.reflectivity ∧
      let v := seen.ray.direction
      let normal := seen.contact.normal
      let w := (v - 2 * v.dot normal * normal).normalizeOrZero
      ∃ hit, s.trace ⟨seen.contact.point + w * epsilon, w⟩ ⟨epsilon, Number.infinity⟩ = some hit ∧
        next = ⟨⟨seen.contact.point + w * epsilon, w⟩, hit.toContact⟩ := by
  rw [bounce?_eq_some_iff, Material.isReflective, decide_eq_true_iff, sighting?,
    Option.map_eq_some_iff]
  simp only [eq_comm (a := next)]
  rfl

/-- The first bounce leads to where the others start. -/
theorem bounces?_succ (s : Scene) (seen : Sighting) (n : ℕ) :
    s.bounces? seen (n + 1) = (s.bounce? seen).bind fun next => s.bounces? next n := by
  induction n with
  | zero =>
    show (some seen).bind s.bounce? = _
    rw [Option.bind_some]
    cases s.bounce? seen <;> rfl
  | succ n ih =>
    rw [bounces?, ih, Option.bind_assoc]
    rfl

theorem isSome_bounces?_of_le (le : n ≤ m) (there : (s.bounces? seen m).isSome) :
    (s.bounces? seen n).isSome := by
  induction m, le using Nat.le_induction with
  | base => exact there
  | succ m _ ih =>
    refine ih ?_
    rw [bounces?] at there
    exact Option.isSome_of_isSome_bind there

/-- The number of bounces from a sighting on, until one meets nothing or comes to no mirror. -/
noncomputable def bounceCount (s : Scene) (seen : Sighting) : ℕ∞ :=
  ⨆ n : ℕ, ⨆ _ : (s.bounces? seen n).isSome, (n : ℕ∞)

theorem natCast_le_bounceCount_iff :
    (n : ℕ∞) ≤ s.bounceCount seen ↔ (s.bounces? seen n).isSome := by
  constructor
  · intro le
    by_contra none
    -- then no bounce from there on is there, and the number is smaller
    cases n with
    | zero => exact none rfl
    | succ n =>
      have most : s.bounceCount seen ≤ n := by
        refine iSup₂_le fun m there => ?_
        by_contra more
        exact none (isSome_bounces?_of_le (by simpa using more) there)
      have := le.trans most
      norm_cast at this
      omega
  · intro there
    exact le_iSup₂_of_le n there le_rfl

/-! ## Paths -/

/-- A path holds what the bounces up to its bound lead to. -/
theorem getElem?_mirrorPath (s : Scene) (seen : Sighting) (bounces i : ℕ) :
    (s.mirrorPath seen bounces)[i]? = if i ≤ bounces then s.bounces? seen i else none := by
  induction bounces generalizing seen i with
  | zero => cases i <;> rfl
  | succ bounces ih =>
    cases i with
    | zero =>
      obtain ⟨rest, path⟩ := s.exists_mirrorPath_eq_cons seen (bounces + 1)
      rw [path]
      rfl
    | succ i =>
      rw [bounces?_succ]
      cases h : s.bounce? seen with
      | none =>
        rw [mirrorPath_of_none h, Option.bind_none, ite_self]
        rfl
      | some next =>
        rw [mirrorPath_of_some h, List.getElem?_cons_succ, ih, Option.bind_some]
        simp only [Nat.add_le_add_iff_right]

theorem lt_length_mirrorPath_iff {i : ℕ} :
    i < (s.mirrorPath seen n).length ↔ i ≤ n ∧ (s.bounces? seen i).isSome := by
  have inside : (s.mirrorPath seen n)[i]? = none ↔ (s.mirrorPath seen n).length ≤ i :=
    List.getElem?_eq_none_iff
  rw [← not_le, ← inside, getElem?_mirrorPath, ← Option.not_isSome_iff_eq_none, not_not]
  split_ifs with within <;> simp [within]

/-- A path has the bounces that are allowed, or all that there are if they are fewer. -/
theorem length_mirrorPath (s : Scene) (seen : Sighting) (bounces : ℕ) :
    ((s.mirrorPath seen bounces).length : ℕ∞) = min (bounces : ℕ∞) (s.bounceCount seen) + 1 := by
  obtain ⟨rest, path⟩ := s.exists_mirrorPath_eq_cons seen bounces
  have last (k : ℕ) : k < (s.mirrorPath seen bounces).length ↔
      (k : ℕ∞) ≤ min (bounces : ℕ∞) (s.bounceCount seen) := by
    rw [lt_length_mirrorPath_iff, le_min_iff, natCast_le_bounceCount_iff, Nat.cast_le]
  rw [path] at last ⊢
  rw [List.length_cons, Nat.cast_succ]
  congr 1
  refine le_antisymm ((last _).mp (Nat.lt_succ_self _)) ?_
  refine ENat.forall_natCast_le_iff_le.mp fun k le => ?_
  exact_mod_cast Nat.le_of_lt_succ ((last k).mpr le)

/-- Allowing more than the bounces that there are changes nothing. -/
theorem mirrorPath_eq_of_bounceCount_le (hn : s.bounceCount seen ≤ n)
    (hm : s.bounceCount seen ≤ m) :
    s.mirrorPath seen n = s.mirrorPath seen m := by
  have all {k i : ℕ} (enough : s.bounceCount seen ≤ k) :
      (s.mirrorPath seen k)[i]? = s.bounces? seen i := by
    rw [getElem?_mirrorPath]
    refine ite_eq_left_iff.mpr fun beyond => ?_
    refine (Option.not_isSome_iff_eq_none.mp fun there => beyond ?_).symm
    exact_mod_cast (natCast_le_bounceCount_iff.mpr there).trans enough
  exact List.ext_getElem? fun i => (all hn).trans (all hm).symm

theorem bounceCount_eq_zero (h : s.bounce? seen = none) : s.bounceCount seen = 0 := by
  rw [← nonpos_iff_eq_zero]
  refine iSup₂_le fun n there => ?_
  cases n with
  | zero => exact le_rfl
  | succ n =>
    rw [bounces?_succ, h] at there
    cases there

/-- Shading follows a chain of mirrors that does not depend on how many bounces are allowed: of the
chain it takes as many bounces as are allowed, or all that there are. One bounce reflects the
direction at a mirror about the normal and normalises it, and leads to what the ray meets that
starts there, off the point. The colour is the colour without bounces at the start, plus, weighted
by the reflectivity, the same of the rest of the chain, rounded in this order. A mirror ray that
meets nothing adds nothing, and allowing more than all bounces changes nothing. -/
theorem shade_eq_chain (s : Scene) (ray : Ray) (c : Contact) (bounces : ℕ) :
    (∃ chain : List Sighting, s.shade ray c bounces = s.pathColor chain ∧
      (chain.length : ℕ∞) = min (bounces : ℕ∞) (s.bounceCount ⟨ray, c⟩) + 1 ∧
      ∀ i < chain.length, chain[i]? = s.bounces? ⟨ray, c⟩ i) ∧
    (∀ n : ℕ, (n : ℕ∞) ≤ s.bounceCount ⟨ray, c⟩ ↔ (s.bounces? ⟨ray, c⟩ n).isSome) ∧
    s.bounces? ⟨ray, c⟩ 0 = some ⟨ray, c⟩ ∧
    (∀ n next, s.bounces? ⟨ray, c⟩ (n + 1) = some next ↔
      ∃ seen, s.bounces? ⟨ray, c⟩ n = some seen ∧ 0 < seen.contact.material.reflectivity ∧
        let v := seen.ray.direction
        let normal := seen.contact.normal
        let w := (v - 2 * v.dot normal * normal).normalizeOrZero
        ∃ hit, s.trace ⟨seen.contact.point + w * epsilon, w⟩ ⟨epsilon, Number.infinity⟩ = some hit ∧
          next = ⟨⟨seen.contact.point + w * epsilon, w⟩, hit.toContact⟩) ∧
    (∀ last : Sighting, s.pathColor [last] = s.shade last.ray last.contact 0) ∧
    (∀ (first next : Sighting) (rest : List Sighting),
      s.pathColor (first :: next :: rest) =
        s.shade first.ray first.contact 0 + first.contact.material.reflectivity *
          s.pathColor (next :: rest)) ∧
    (∀ w, w = (ray.direction - 2 * ray.direction.dot c.normal * c.normal).normalizeOrZero →
      s.trace ⟨c.point + w * epsilon, w⟩ ⟨epsilon, Number.infinity⟩ = none →
        s.shade ray c bounces = s.shade ray c 0) ∧
    ∀ more : ℕ, s.bounceCount ⟨ray, c⟩ ≤ bounces → s.bounceCount ⟨ray, c⟩ ≤ more →
      s.shade ray c bounces = s.shade ray c more := by
  have colors (n : ℕ) : s.shade ray c n = s.pathColor (s.mirrorPath ⟨ray, c⟩ n) :=
    s.shade_eq_pathColor ⟨ray, c⟩ n
  have enough {n m : ℕ} (hn : s.bounceCount ⟨ray, c⟩ ≤ n) (hm : s.bounceCount ⟨ray, c⟩ ≤ m) :
      s.shade ray c n = s.shade ray c m := by
    rw [colors, colors, mirrorPath_eq_of_bounceCount_le hn hm]
  refine ⟨⟨_, colors bounces, s.length_mirrorPath _ _, fun i within => ?_⟩,
    fun _ => natCast_le_bounceCount_iff, rfl, fun n next => ?_, fun _ => rfl, fun _ _ _ => rfl, ?_,
    fun more => enough⟩
  · rw [getElem?_mirrorPath, if_pos (lt_length_mirrorPath_iff.mp within).1]
  · rw [bounces?, Option.bind_eq_some_iff]
    simp only [bounce?_eq_some_iff_reflects]
  · rintro w rfl missed
    have last : s.bounce? ⟨ray, c⟩ = none := by
      refine Option.eq_none_iff_forall_ne_some.mpr fun next bounced => ?_
      obtain ⟨-, hit, met, -⟩ := bounce?_eq_some_iff_reflects.mp bounced
      exact Option.some_ne_none hit (met.symm.trans missed)
    exact enough (by simp [bounceCount_eq_zero last]) (by simp [bounceCount_eq_zero last])

/-- A floor turns a ray up and a wall turns it round, both of them mirrors. It comes to a ball that
is none, though more bounces than these two are allowed. -/
theorem shade_eq_chain_corner :
    let mirror : Material := .ofParts (.splat 0.5) .zero 1 0.5
    let floor := Plane.through .zero .unitY mirror
    let wall := Plane.through .zero ⟨1, 0, 0⟩ mirror
    let scene : Scene :=
      ⟨#[.plane floor, .plane wall, .sphere (.around ⟨4, 5, 0⟩ 1 default)], none, default⟩
    let ray : Ray := ⟨⟨2, 1, 0⟩, ⟨-1, -1, 0⟩⟩
    let c := (Shape.plane floor).contactAt ray 1
    ∃ second third : Sighting, scene.bounceCount ⟨ray, c⟩ = 2 ∧
      scene.bounces? ⟨ray, c⟩ 1 = some second ∧ scene.bounces? ⟨ray, c⟩ 2 = some third ∧
      second.ray.direction = (⟨-1, 1, 0⟩ : Vec3).normalizeOrZero ∧
      second.contact.material = mirror ∧
      third.ray.direction = (second.ray.direction * (⟨-1, 1, 1⟩ : Vec3)).normalizeOrZero ∧
      third.contact.material = default ∧
      scene.shade ray c 5 = scene.shade ray c 0 + mirror.reflectivity *
        (scene.shade second.ray second.contact 0 + mirror.reflectivity *
          scene.shade third.ray third.contact 0) := by
  intro mirror floor wall scene ray c
  obtain ⟨⟨chain, color, length, along⟩, count, -, -, last, more, -⟩ := shade_eq_chain scene ray c 5
  have one :
      (scene.bounces? ⟨ray, c⟩ 1).map (fun seen => (seen.ray.direction, seen.contact.material)) =
      some ((⟨-1, 1, 0⟩ : Vec3).normalizeOrZero, mirror) := by decide +kernel
  have two :
      (scene.bounces? ⟨ray, c⟩ 2).map (fun seen => (seen.ray.direction, seen.contact.material)) =
      some (((⟨-1, 1, 0⟩ : Vec3).normalizeOrZero * (⟨-1, 1, 1⟩ : Vec3)).normalizeOrZero,
        default) := by
    decide +kernel
  have three : (scene.bounces? ⟨ray, c⟩ 3).isSome = false := by decide +kernel
  obtain ⟨second, found, same⟩ := Option.map_eq_some_iff.mp one
  obtain ⟨third, found', same'⟩ := Option.map_eq_some_iff.mp two
  obtain ⟨direction, material⟩ := Prod.mk.inj same
  obtain ⟨direction', material'⟩ := Prod.mk.inj same'
  have bounces : scene.bounceCount ⟨ray, c⟩ = 2 := by
    refine le_antisymm ?_ ((count 2).mpr (Option.isSome_of_eq_some found'))
    refine Order.le_of_lt_add_one (not_le.mp fun more => ?_)
    exact Bool.false_ne_true (three.symm.trans ((count 3).mp more))
  have all : chain.length = 3 := by
    rw [bounces, min_eq_right (by norm_num)] at length
    exact_mod_cast length
  obtain ⟨x, y, z, rfl⟩ := List.length_eq_three.mp all
  obtain rfl : x = ⟨ray, c⟩ := Option.some.inj (along 0 (by simp))
  obtain rfl : y = second := Option.some.inj ((along 1 (by simp)).trans found)
  obtain rfl : z = third := Option.some.inj ((along 2 (by simp)).trans found')
  have turned : z.ray.direction = (y.ray.direction * (⟨-1, 1, 1⟩ : Vec3)).normalizeOrZero := by
    rw [direction, direction']
  refine ⟨y, z, bounces, found, found', direction, material, turned, material', ?_⟩
  rw [color, more, more, last, material]
  rfl

end Scene

end RayTracer
