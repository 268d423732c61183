import Mathlib.Data.List.Induction
import RayTracer.Proofs.Hierarchy.Balance
import RayTracer.Scene.History

/-! # A hierarchy is never stale

What a scene holds after any list of edits, read off the edits. `Follows` is the invariant and
`Follows.edit` its step; `follows_editAll` is the run.

The ingredient that is not plain bookkeeping is a build that fails. It leaves the scene alone, so it
could leave a hierarchy of an earlier policy behind. But a hierarchy that is there was built over
the shapes that are there, so there are some, and then no build fails.

A search passes over a number without a shape. `Hierarchy.strictClosest?` does not: it has no result
if it comes to one. In a scene with a history it always has one (`Scene.editAll_fresh`).
-/

namespace RayTracer

/-! ## Searches that insist on a shape -/

/-- The search of `closest`, which has no result if it comes to a number without a shape. -/
def Hierarchy.strictClosest? (shapes : Array Shape) (ray : Ray) (range : Interval) :
    Hierarchy → Option Hit → Option (Option Hit)
  | leaf object _, best => shapes[object]?.map fun s => Hit.consider ray range object s best
  | branch l r b, best =>
    if b.isHit ray (range.upTo best) then
      (l.strictClosest? shapes ray range best).bind (r.strictClosest? shapes ray range)
    else some best

/-- The search of `trace`, which has no result if it comes to a number without a shape. -/
def Scene.strictTrace? (s : Scene) (ray : Ray) (range : Interval) : Option (Option Hit) :=
  match s.hierarchy with
  | none => some (s.traceLinear ray range)
  | some h => h.strictClosest? s.shapes ray range none

/-- The question of `inShadow`, which has no answer if the search comes to a number without a
shape. -/
def Scene.strictInShadow? (s : Scene) (point direction : Vec3) (distance : Float32) : Option Bool :=
  (s.strictTrace? ⟨point + epsilon * direction, direction⟩ ⟨epsilon, distance⟩).map Option.isSome

theorem Hierarchy.strictClosest?_eq {shapes : Array Shape} {ray : Ray} {range : Interval}
    (h : Hierarchy) (inside : ∀ object ∈ h.objects, object < shapes.size) (best : Option Hit) :
    h.strictClosest? shapes ray range best = some (h.closest shapes ray range best) := by
  induction h generalizing best with
  | leaf object b =>
    have there := Array.getElem?_eq_getElem (inside object (List.mem_singleton_self _))
    rw [strictClosest?, closest, there, Option.map_some]
  | branch l r b left right =>
    rw [strictClosest?, closest]
    split_ifs
    · rw [left fun object mem => inside object (List.mem_append_left _ mem), Option.bind_some]
      exact right (fun object mem => inside object (List.mem_append_right _ mem)) _
    · rfl

namespace Scene

/-! ## Builds -/

variable {s : Scene} {policy : SplitPolicy}

theorem build_of_shapes {h : Hierarchy} (built : Hierarchy.ofShapes s.shapes policy = .ok h) :
    s.build policy = .ok { s with hierarchy := some h } := by
  rw [build, built]
  rfl

theorem build_of_empty (empty : s.shapes = #[]) : s.build policy = .error .emptyScene := by
  rw [build, empty]
  rfl

theorem edit_build_of_empty (empty : s.shapes = #[]) : s.edit (.build policy) = s := by
  rw [edit, edit?, build_of_empty empty]
  rfl

theorem edit_build_of_shapes {h : Hierarchy} (built : Hierarchy.ofShapes s.shapes policy = .ok h) :
    s.edit (.build policy) = { s with hierarchy := some h } := by
  rw [edit, edit?, build_of_shapes built]
  rfl

/-! ## Histories -/

/-- A build that succeeds, and no shape added after it. -/
def BuiltLast (light : Light) (edits : List Edit) : Prop :=
  ∃ before policy after built, edits = before ++ .build policy :: after ∧
    ((lit light).editAll before).edit? (.build policy) = .ok built ∧ ∀ shape, .add shape ∉ after

/-- The scene is what the edits say. -/
structure Follows (start : Light) (edits : List Edit) (s : Scene) : Prop where
  shapes : s.shapes.toList = added edits
  light : s.light = (lights edits).getLastD start
  isBuilt : s.isBuilt = true ↔ BuiltLast start edits
  fresh : ∀ h, s.hierarchy = some h →
    ∃ policy, (policies edits).getLast? = some policy ∧ Hierarchy.ofShapes s.shapes policy = .ok h

/-- What the last edit does to that condition. -/
theorem builtLast_concat {light : Light} {edits : List Edit} {e : Edit} :
    BuiltLast light (edits ++ [e]) ↔
      (∃ policy built, e = .build policy ∧ ((lit light).editAll edits).edit? e = .ok built) ∨
        (∀ shape, e ≠ .add shape) ∧ BuiltLast light edits := by
  constructor
  · rintro ⟨before, policy, after, built, split, succeeds, noneAdded⟩
    -- the build is the last edit, or the last edit is one of those after it
    obtain rfl | ⟨init, last, rfl⟩ := after.eq_nil_or_concat'
    · obtain ⟨rfl, same⟩ := List.append_inj' split rfl
      cases same
      exact .inl ⟨policy, built, rfl, succeeds⟩
    · rw [← List.cons_append, ← List.append_assoc] at split
      obtain ⟨rfl, same⟩ := List.append_inj' split rfl
      cases same
      refine .inr ⟨?_, before, policy, init, built, rfl, succeeds, fun shape mem => ?_⟩
      · rintro shape rfl
        exact noneAdded shape (List.mem_append_right _ (List.mem_singleton_self _))
      · exact noneAdded shape (List.mem_append_left _ mem)
  · rintro (⟨policy, built, rfl, succeeds⟩ | ⟨notAdded, before, policy, after, built, rfl,
      succeeds, noneAdded⟩)
    · exact ⟨edits, policy, [], built, rfl, succeeds, fun _ => List.not_mem_nil⟩
    · refine ⟨before, policy, after ++ [e], built, by simp, succeeds, fun shape mem => ?_⟩
      obtain inside | last := List.mem_append.mp mem
      · exact noneAdded shape inside
      · exact notAdded shape (List.mem_singleton.mp last).symm

variable {light : Light} {edits : List Edit}

theorem added_concat (e : Edit) : added (edits ++ [e]) = added edits ++ added [e] :=
  List.filterMap_append

theorem lights_concat (e : Edit) : lights (edits ++ [e]) = lights edits ++ lights [e] :=
  List.filterMap_append

theorem policies_concat (e : Edit) : policies (edits ++ [e]) = policies edits ++ policies [e] :=
  List.filterMap_append

theorem editAll_concat (e : Edit) : s.editAll (edits ++ [e]) = (s.editAll edits).edit e :=
  List.foldl_concat ..

theorem follows_lit : Follows light [] (lit light) where
  shapes := rfl
  light := rfl
  isBuilt := by
    refine ⟨nofun, ?_⟩
    rintro ⟨before, policy, after, -, split, -⟩
    exact absurd split (by simp)
  fresh := nofun

/-- A scene with a hierarchy has a shape. -/
theorem Follows.hierarchy_eq_none (follows : Follows light edits s) (empty : s.shapes = #[]) :
    s.hierarchy = none := by
  rw [← Option.not_isSome_iff_eq_none, Option.isSome_iff_exists]
  rintro ⟨h, there⟩
  obtain ⟨policy, -, built⟩ := follows.fresh h there
  rw [empty] at built
  cases built

/-- One edit keeps the scene in step with its history. -/
theorem Follows.edit (follows : Follows light edits s) (reached : (lit light).editAll edits = s)
    (e : Edit) :
    Follows light (edits ++ [e]) (s.edit e) := by
  cases e with
  | add shape =>
    refine ⟨?_, ?_, ?_, nofun⟩
    · show (s.shapes.push shape).toList = _
      rw [Array.toList_push, follows.shapes, added_concat]
      rfl
    · rw [lights_concat]
      exact follows.light.trans (congrArg (List.getLastD · light) (List.append_nil _).symm)
    · rw [builtLast_concat]
      refine ⟨nofun, ?_⟩
      rintro (⟨policy, built, same, -⟩ | ⟨notAdded, -⟩)
      · cases same
      · exact absurd rfl (notAdded shape)
  | light next =>
    refine ⟨?_, ?_, ?_, fun h there => ?_⟩
    · rw [added_concat]
      exact follows.shapes.trans (List.append_nil _).symm
    · rw [lights_concat]
      exact (List.getLastD_concat ..).symm
    · rw [builtLast_concat]
      refine follows.isBuilt.trans ⟨fun built => .inr ⟨nofun, built⟩, ?_⟩
      rintro (⟨policy, built, same, -⟩ | ⟨-, built⟩)
      · cases same
      · exact built
    · rw [policies_concat]
      show ∃ policy, (policies edits ++ []).getLast? = _ ∧ _
      rw [List.append_nil]
      exact follows.fresh h there
  | build policy =>
    have shapes : s.shapes.toList = added (edits ++ [.build policy]) := by
      rw [added_concat]
      exact follows.shapes.trans (List.append_nil _).symm
    have kept : s.light = (lights (edits ++ [.build policy])).getLastD light := by
      rw [lights_concat]
      exact follows.light.trans (congrArg (List.getLastD · light) (List.append_nil _).symm)
    have latest : (policies (edits ++ [.build policy])).getLast? = some policy := by
      rw [policies_concat]
      exact List.getLast?_concat
    obtain empty | nonempty := eq_or_ne s.shapes #[]
    · -- nothing happens, and there is no hierarchy that could be of an earlier policy
      have none := follows.hierarchy_eq_none empty
      rw [edit_build_of_empty empty]
      refine ⟨shapes, kept, ?_, fun h there => absurd (none.symm.trans there)
        (Option.some_ne_none h).symm⟩
      rw [builtLast_concat, reached]
      refine follows.isBuilt.trans ⟨fun built => .inr ⟨nofun, built⟩, ?_⟩
      rintro (⟨policy', built, -, succeeds⟩ | ⟨-, built⟩)
      · rw [edit?, build_of_empty empty] at succeeds
        cases succeeds
      · exact built
    · obtain ⟨h, built, -⟩ := Hierarchy.ofShapes_eq_ok nonempty policy
      rw [edit_build_of_shapes built]
      refine ⟨shapes, kept, ?_, ?_⟩
      · rw [builtLast_concat, reached]
        exact ⟨fun _ => .inl ⟨policy, _, rfl, build_of_shapes built⟩, fun _ => rfl⟩
      · rintro _ ⟨⟩
        exact ⟨policy, latest, built⟩

theorem follows_editAll (light : Light) (edits : List Edit) :
    Follows light edits ((lit light).editAll edits) := by
  induction edits using List.reverseRecOn with
  | nil => exact follows_lit
  | append_singleton edits e follows =>
    rw [editAll_concat]
    exact follows.edit rfl e

theorem Follows.objects_perm (follows : Follows light edits s) {h : Hierarchy}
    (there : s.hierarchy = some h) :
    h.objects.Perm (List.range s.size) := by
  obtain ⟨policy, -, built⟩ := follows.fresh h there
  have nonempty : s.shapes ≠ #[] := fun empty =>
    absurd (there.symm.trans (follows.hierarchy_eq_none empty)) (Option.some_ne_none h)
  obtain ⟨h', built', leaves⟩ := Hierarchy.ofShapes_eq_ok nonempty policy
  rw [built] at built'
  cases built'
  exact Hierarchy.objects_perm leaves

theorem Follows.strictTrace?_eq (follows : Follows light edits s) (ray : Ray) (range : Interval) :
    s.strictTrace? ray range = some (s.trace ray range) := by
  unfold strictTrace? trace
  cases there : s.hierarchy with
  | none => rfl
  | some h =>
    refine h.strictClosest?_eq (fun object mem => ?_) none
    exact List.mem_range.mp ((follows.objects_perm there).mem_iff.mp mem)

/-- After any edits a scene holds the shapes that were added, in order, and the light that was set
last. It has a hierarchy exactly if a build succeeded and no shape was added since; then it is the
one over the present shapes under the policy of the latest build. So no search comes to a number
without a shape. A build fails exactly in a scene without shapes, and leaves the scene as it was. -/
theorem editAll_fresh (light : Light) (edits : List Edit) :
    let s := (lit light).editAll edits
    s.shapes.toList = added edits ∧
      s.light = (lights edits).getLastD light ∧
      (s.isBuilt = true ↔ ∃ before policy after built, edits = before ++ .build policy :: after ∧
        ((lit light).editAll before).edit? (.build policy) = .ok built ∧
        ∀ shape, .add shape ∉ after) ∧
      (∀ h, s.hierarchy = some h →
        (∃ policy, (policies edits).getLast? = some policy ∧
          Hierarchy.ofShapes s.shapes policy = .ok h) ∧
          h.objects.Perm (List.range s.size)) ∧
      (∀ ray range, s.strictTrace? ray range = some (s.trace ray range)) ∧
      (∀ point direction distance,
        s.strictInShadow? point direction distance = some (s.inShadow point direction distance)) ∧
      (∀ policy e, s.edit? (.build policy) = .error e ↔ s.size = 0 ∧ e = .emptyScene) ∧
      ∀ policy e, s.edit? (.build policy) = .error e → s.edit (.build policy) = s := by
  intro s
  have follows : Follows light edits s := follows_editAll light edits
  have fails : ∀ policy e, s.edit? (.build policy) = .error e ↔ s.size = 0 ∧ e = .emptyScene := by
    intro policy e
    obtain empty | nonempty := eq_or_ne s.shapes #[]
    · have none : s.size = 0 := Array.size_eq_zero_iff.mpr empty
      rw [edit?, build_of_empty empty]
      simp [none, eq_comm]
    · have some : s.size ≠ 0 := fun none => nonempty (Array.size_eq_zero_iff.mp none)
      obtain ⟨h, built, -⟩ := Hierarchy.ofShapes_eq_ok nonempty policy
      rw [edit?, build_of_shapes built]
      simp [some]
  refine ⟨follows.shapes, follows.light, follows.isBuilt,
    fun h there => ⟨follows.fresh h there, follows.objects_perm there⟩, follows.strictTrace?_eq,
    ?_, fails, ?_⟩
  · intro point direction distance
    rw [strictInShadow?, follows.strictTrace?_eq, Option.map_some]
    rfl
  · intro policy e failed
    exact edit_build_of_empty (Array.size_eq_zero_iff.mp ((fails policy e).mp failed).1)

end Scene

end RayTracer
