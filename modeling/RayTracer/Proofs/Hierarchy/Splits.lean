import RayTracer.Proofs.Geometry.Corners
import RayTracer.Proofs.Hierarchy.Unions
import RayTracer.Proofs.Random.Draws

/-! # The splits of a hierarchy

A tree does not say along which axes it was split, so `Grown` tells how it came about: which axis
was drawn for each branch, and what is left of the source of axes.

* `Grown.draws`: the source is threaded through both subtrees, but what it gives are the draws for
  one branch after the other, in preorder. What is drawn for a branch depends on its leaves only,
  not on their order.
* `Grown.ordered`: along its axis a branch separates the centres, even though each subtree is sorted
  anew along axes of its own. It needs a sort that sorts (`Arrangement.Sorts`), and `sorts_sorted`
  is one.
* `ofBoxes?_splits` puts this together for each policy.
-/

namespace RayTracer

open Number

/-! ## Draws in sequence -/

namespace AxisSource

/-- The axes for one list of items after the other, and the source that they leave. -/
def draw : AxisSource → List (List Item) → List Axis × AxisSource
  | axes, [] => ([], axes)
  | axes, span :: spans =>
    ((axes.next span).1 :: ((axes.next span).2.draw spans).1, ((axes.next span).2.draw spans).2)

theorem draw_append (axes : AxisSource) (first last : List (List Item)) :
    axes.draw (first ++ last) =
      ((axes.draw first).1 ++ ((axes.draw first).2.draw last).1,
        ((axes.draw first).2.draw last).2) := by
  induction first generalizing axes with
  | nil => rfl
  | cons span spans ih => simp only [List.cons_append, draw, ih]

theorem draw_fixed (axis : Axis) (spans : List (List Item)) :
    (fixed axis).draw spans = (List.replicate spans.length axis, fixed axis) := by
  induction spans with
  | nil => rfl
  | cons span spans ih => simp only [draw, next, ih, List.length_cons, List.replicate_succ]

theorem draw_random (s : Random.AxisStream) (spans : List (List Item)) :
    (random s).draw spans = (s.take spans.length, random (s.after spans.length)) := by
  induction spans generalizing s with
  | nil => rfl
  | cons span spans ih => simp only [draw, next, ih, List.length_cons, Random.AxisStream.take,
      Random.AxisStream.after]

theorem draw_longest (spans : List (List Item)) :
    longest.draw spans =
      (spans.map fun span => (Item.centroidBounds span).longestAxis, longest) := by
  induction spans with
  | nil => rfl
  | cons span spans ih => simp only [draw, next, ih, List.map_cons]

end AxisSource

/-! ## The order of the items does not matter -/

theorem Box.Alike.longestAxis_eq {a b : Box} (same : a.Alike b) :
    a.longestAxis = b.longestAxis := by
  have size (axis : Axis) : Number.Alike (a.along axis).size (b.along axis).size :=
    (same axis).2.sub (same axis).1
  have longer (i j : Axis) : (a.along j).size < (a.along i).size ↔
      (b.along j).size < (b.along i).size :=
    (size j).lt_iff (size i)
  simp only [longestAxis, gt_iff_lt, Bool.and_eq_true, decide_eq_true_eq,
    show a.x = a.along .x from rfl, show a.y = a.along .y from rfl,
    show a.z = a.along .z from rfl, longer]
  rfl

theorem Item.centroidBounds_isUnion (items : List Item) :
    (centroidBounds items).IsUnion (.empty :: items.map fun i =>
      .ofCorners i.box.centroid i.box.centroid) :=
  (Box.isUnion_singleton .empty).foldl_hull _ items

/-- Of some items whose centres are numbers the bounds are the union of the centres' boxes alone. -/
theorem Item.centroidBounds_isUnion_map {items : List Item} {i : Item} (mem : i ∈ items)
    (numbers : ∀ axis, IsNumber (i.center axis)) :
    (centroidBounds items).IsUnion (items.map fun i => .ofCorners i.box.centroid i.box.centroid) :=
  (centroidBounds_isUnion items).of_empty_cons (List.mem_map_of_mem mem)
    (Box.hasNumbers_ofCorners _ numbers)

theorem Item.longestAxis_perm {items items' : List Item} (perm : items.Perm items') :
    (centroidBounds items).longestAxis = (centroidBounds items').longestAxis := by
  refine Box.Alike.longestAxis_eq (((centroidBounds_isUnion items).of_mem_iff fun b => ?_).alike
    (centroidBounds_isUnion items'))
  exact ((perm.map _).cons _).mem_iff

theorem AxisSource.next_perm (axes : AxisSource) {items items' : List Item}
    (perm : items.Perm items') :
    axes.next items = axes.next items' := by
  cases axes with
  | longest => rw [next, next, Item.longestAxis_perm perm]
  | fixed axis => rfl
  | random s => rfl

/-! ## Sorts that sort -/

namespace Hierarchy

/-- The arranged centres never decrease, so long as none is NaN. -/
def Arrangement.Sorts (a : Arrangement) : Prop :=
  ∀ axis items, (∀ i ∈ items, IsNumber (i.center axis)) →
    (a.arrange axis items).Pairwise fun i j => i.center axis ≤ j.center axis

theorem not_before_iff {axis : Axis} {i j : Item} (hi : IsNumber (i.center axis))
    (hj : IsNumber (j.center axis)) :
    ¬Item.before axis i j = true ↔ j.center axis ≤ i.center axis := by
  rw [Item.before, decide_eq_true_iff]
  exact number_not_lt hi hj

theorem le_of_before {axis : Axis} {i j : Item} (h : Item.before axis i j = true) :
    i.center axis ≤ j.center axis := by
  obtain ⟨hi, hj, below⟩ := (lt_iff _ _).mp (of_decide_eq_true h)
  exact (le_iff _ _).mpr ⟨hi, hj, below.le⟩

theorem insert_pairwise {axis : Axis} {i : Item} {items : List Item}
    (number : IsNumber (i.center axis)) (numbers : ∀ j ∈ items, IsNumber (j.center axis))
    (sorted : items.Pairwise fun j k => k.center axis ≤ j.center axis) :
    (Item.insert axis i items).Pairwise fun j k => k.center axis ≤ j.center axis := by
  induction items with
  | nil => exact List.pairwise_singleton _ _
  | cons j rest ih =>
    obtain ⟨numberJ, numbersRest⟩ := List.forall_mem_cons.mp numbers
    obtain ⟨first, sortedRest⟩ := List.pairwise_cons.mp sorted
    unfold Item.insert
    split_ifs with behind
    · refine List.pairwise_cons.mpr ⟨fun k mem => ?_, ih numbersRest sortedRest⟩
      obtain rfl | mem := List.mem_cons.mp ((Item.insert_perm axis i rest).mem_iff.mp mem)
      · exact le_of_before behind
      · exact first k mem
    · have ahead := (not_before_iff number numberJ).mp behind
      refine List.pairwise_cons.mpr ⟨fun k mem => ?_, sorted⟩
      obtain rfl | mem := List.mem_cons.mp mem
      · exact ahead
      · exact number_le_trans (first k mem) ahead

/-- Inserting item after item keeps a list sorted backwards. -/
theorem foldl_insert_pairwise {axis : Axis} {items sorted : List Item}
    (numbers : ∀ i ∈ items, IsNumber (i.center axis))
    (numbersSorted : ∀ i ∈ sorted, IsNumber (i.center axis))
    (pairwise : sorted.Pairwise fun j k => k.center axis ≤ j.center axis) :
    (items.foldl (fun sorted i => Item.insert axis i sorted) sorted).Pairwise
      fun j k => k.center axis ≤ j.center axis := by
  induction items generalizing sorted with
  | nil => exact pairwise
  | cons i items ih =>
    obtain ⟨number, numbersItems⟩ := List.forall_mem_cons.mp numbers
    refine ih numbersItems (fun j mem => ?_) (insert_pairwise number numbersSorted pairwise)
    obtain rfl | mem := List.mem_cons.mp ((Item.insert_perm axis i sorted).mem_iff.mp mem)
    · exact number
    · exact numbersSorted j mem

theorem sorts_sorted : Arrangement.sorted.Sorts :=
  fun _ _ numbers => List.pairwise_reverse.mpr (foldl_insert_pairwise numbers nofun .nil)

/-! ## How a tree comes about -/

/-- A run of `grow?`: the source and the items at the start, the tree, the axes drawn for its
branches, and the source at the end. -/
inductive Grown (a : Arrangement) :
    AxisSource → List Item → Hierarchy → List Axis → AxisSource → Prop
  | leaf (axes : AxisSource) (i : Item) : Grown a axes [i] i.leaf [] axes
  | pair (axes : AxisSource) (i j : Item) :
    Grown a axes [i, j] (pair (axes.next [i, j]).1 i j) [(axes.next [i, j]).1] (axes.next [i, j]).2
  | branch {axes between rest : AxisSource} {items : List Item} {l r : Hierarchy}
      {logL logR : List Axis} :
    2 < items.length →
      Grown a (axes.next items).2 (a.lower (axes.next items).1 items) l logL between →
      Grown a between (a.upper (axes.next items).1 items) r logR rest →
      Grown a axes items (join l r) ((axes.next items).1 :: (logL ++ logR)) rest

variable {a : Arrangement} {axes rest : AxisSource} {items : List Item} {h : Hierarchy}
  {log : List Axis}

theorem grow?_of_two_lt (many : 2 < items.length) :
    grow? a axes items =
      (grow? a (axes.next items).2 (a.lower (axes.next items).1 items)).bind fun left =>
        (grow? a left.2 (a.upper (axes.next items).1 items)).map fun right =>
          (join left.1 right.1, right.2) := by
  match items, many with
  | i :: j :: k :: rest, _ => rw [grow?]

theorem Grown.grow?_eq (grown : Grown a axes items h log rest) :
    grow? a axes items = some (h, rest) := by
  induction grown with
  | leaf axes i => rw [grow?]
  | pair axes i j => rw [grow?]
  | branch many _ _ left right =>
    rw [grow?_of_two_lt many, left, Option.bind_some, right, Option.map_some]

theorem exists_log {grown : Hierarchy × AxisSource} (found : grow? a axes items = some grown) :
    ∃ log, Grown a axes items grown.1 log grown.2 := by
  revert grown
  fun_induction grow? a axes items with
  | case1 =>
    intro grown found
    cases found
  | case2 axes i =>
    intro grown found
    cases found
    exact ⟨_, .leaf axes i⟩
  | case3 axes i j =>
    intro grown found
    cases found
    exact ⟨_, .pair axes i j⟩
  | case4 axes i j k rest lower upper =>
    intro grown found
    obtain ⟨left, foundLeft, found⟩ := Option.bind_eq_some_iff.mp found
    obtain ⟨right, foundRight, rfl⟩ := Option.map_eq_some_iff.mp found
    obtain ⟨logL, grownLeft⟩ := lower foundLeft
    obtain ⟨logR, grownRight⟩ := upper left foundRight
    exact ⟨_, .branch (by simp only [List.length_cons]; omega) grownLeft grownRight⟩

theorem Grown.leaves_perm (grown : Grown a axes items h log rest) : h.leaves.Perm items :=
  leaves_grow? grown.grow?_eq

/-! ## What is drawn -/

/-- The leaves below each branch, the branches in preorder. -/
def spans (h : Hierarchy) : List (List Item) := h.branches.map fun (l, r) => l.leaves ++ r.leaves

theorem spans_join (l r : Hierarchy) :
    (join l r).spans = (l.leaves ++ r.leaves) :: (l.spans ++ r.spans) := by
  rw [spans, join, branches, List.map_cons, List.map_append]
  rfl

theorem spans_pair (axis : Axis) (i j : Item) :
    (pair axis i j).spans = [(pair axis i j).leaves] := by
  unfold pair
  split_ifs
  · rfl
  · rfl

/-- The tree draws once for each branch, in preorder. -/
theorem Grown.draws (grown : Grown a axes items h log rest) : axes.draw h.spans = (log, rest) := by
  induction grown with
  | leaf axes i => rfl
  | pair axes i j =>
    rw [spans_pair, AxisSource.draw, axes.next_perm (leaves_pair _ i j)]
    rfl
  | @branch axes between rest items l r logL logR many left right drawsL drawsR =>
    have perm : (l.leaves ++ r.leaves).Perm items := (Grown.branch many left right).leaves_perm
    rw [spans_join, AxisSource.draw, axes.next_perm perm, AxisSource.draw_append, drawsL, drawsR]

/-! ## What is separated -/

/-- No centre on the left is beyond one on the right. -/
def Separates (axis : Axis) (branch : Hierarchy × Hierarchy) : Prop :=
  ∀ i ∈ branch.1.leaves, ∀ j ∈ branch.2.leaves, i.center axis ≤ j.center axis

theorem Arrangement.Sorts.halves (sorts : a.Sorts) {axis : Axis}
    (numbers : ∀ i ∈ items, IsNumber (i.center axis)) :
    ∀ i ∈ a.lower axis items, ∀ j ∈ a.upper axis items, i.center axis ≤ j.center axis := by
  have sorted := sorts axis items numbers
  rw [← List.take_append_drop (items.length / 2) (a.arrange axis items)] at sorted
  exact (List.pairwise_append.mp sorted).2.2

theorem Grown.ordered (sorts : a.Sorts) (grown : Grown a axes items h log rest)
    (numbers : ∀ axis, ∀ i ∈ items, IsNumber (i.center axis)) :
    List.Forall₂ Separates log h.branches := by
  induction grown with
  | leaf axes i => exact .nil
  | pair axes i j =>
    have number := numbers (axes.next [i, j]).1 i List.mem_cons_self
    have numberJ :=
      numbers (axes.next [i, j]).1 j (List.mem_cons_of_mem _ (List.mem_singleton_self j))
    have one {k k' : Item} (mem : k' ∈ k.leaf.leaves) : k' = k := List.mem_singleton.mp mem
    unfold Hierarchy.pair
    split_ifs with before
    · refine .cons (fun i' mem j' mem' => ?_) .nil
      obtain rfl := one mem
      obtain rfl := one mem'
      exact le_of_before before
    · refine .cons (fun i' mem j' mem' => ?_) .nil
      obtain rfl := one mem
      obtain rfl := one mem'
      exact (not_before_iff number numberJ).mp before
  | @branch axes _ _ items _ _ _ _ many left right orderedL orderedR =>
    have halves := a.lower_append_upper_perm (axes.next items).1 items
    refine .cons (fun i memL j memR => ?_) (List.rel_append (orderedL fun axis i mem => ?_)
      (orderedR fun axis i mem => ?_))
    · -- the subtrees have the items of the two halves, in whatever order
      exact sorts.halves (numbers _) i (left.leaves_perm.mem_iff.mp memL) j
        (right.leaves_perm.mem_iff.mp memR)
    · exact numbers axis i (halves.mem_iff.mp (List.mem_append_left _ mem))
    · exact numbers axis i (halves.mem_iff.mp (List.mem_append_right _ mem))

/-! ## The boxes of a scene -/

theorem leaves_subset_of_mem_branches {l r : Hierarchy} (mem : (l, r) ∈ h.branches) :
    l.leaves ++ r.leaves ⊆ h.leaves := by
  induction h with
  | leaf object b => cases mem
  | branch l' r' b left right =>
    obtain same | below := List.mem_cons.mp mem
    · cases same
      exact List.Subset.refl _
    · obtain inL | inR := List.mem_append.mp below
      · exact List.subset_append_of_subset_left _ (left inL)
      · exact List.subset_append_of_subset_right _ (right inR)

theorem branches_length (h : Hierarchy) : h.branches.length + 1 = h.leaves.length := by
  induction h with
  | leaf object b => rfl
  | branch l r b left right =>
    rw [branches, leaves, List.length_cons, List.length_append, List.length_append]
    omega

/-- Each branch of the tree over a list of boxes, taken in preorder, is split along the axis that
the policy prescribes: the axis of the number that is fixed, at most the last one; the next one of
the random axes, of which no more are drawn than there are branches; the longest axis of the union
of the boxes around the centres of its leaves. Along this axis no centre on the left is beyond one
on the right. Random axes are those of the words that are not refused, in order, up to some word;
only if all words are refused, there is none to draw. -/
theorem ofBoxes?_splits (a : Arrangement) (sorts : a.Sorts) (boxes : List Box)
    (policy : SplitPolicy) (nonempty : boxes ≠ [])
    (numbers : ∀ b ∈ boxes, ∀ axis, IsNumber (b.centroid.along axis)) :
    ∃ h log rest, Grown a (.ofPolicy policy) (numbered boxes) h log rest ∧
      ofBoxes? a boxes policy = some (.ok h) ∧ (∀ i ∈ h.leaves, boxes[i.object]? = some i.box) ∧
      h.branches.length = boxes.length - 1 ∧ log.length = boxes.length - 1 ∧
      (∀ n, policy = .fixed n → log.map Axis.index = List.replicate (boxes.length - 1) (min n 2)) ∧
      (∀ seed, policy = .random seed →
        log = (Random.AxisStream.ofSeed seed).take (boxes.length - 1) ∧
        rest = .random ((Random.AxisStream.ofSeed seed).after (boxes.length - 1)) ∧
        let key := Random.keyOfSeed seed
        ((∃ n, Random.axisOfWord? (Random.keystream key n) ≠ none) →
          ∃ read, rest = .random ⟨key, read⟩ ∧ log = Random.accepted key 0 read)) ∧
      (policy = .longest →
        log = (h.branches.map fun (l, r) =>
          (Item.centroidBounds (l.leaves ++ r.leaves)).longestAxis) ∧
          ∀ l r, (l, r) ∈ h.branches → (Item.centroidBounds (l.leaves ++ r.leaves)).IsUnion
            ((l.leaves ++ r.leaves).map fun i => .ofCorners i.box.centroid i.box.centroid)) ∧
      List.Forall₂ Separates log h.branches := by
  obtain ⟨⟨h, rest⟩, found, built⟩ := exists_grown a policy nonempty
  obtain ⟨log, grown⟩ : ∃ log, Grown a (.ofPolicy policy) (numbered boxes) h log rest :=
    exists_log found
  have count : h.branches.length = boxes.length - 1 := by
    have leaves := grown.leaves_perm.length_eq
    rw [length_numbered] at leaves
    have one := branches_length h
    omega
  have spans : h.spans.length = boxes.length - 1 := by rw [Hierarchy.spans, List.length_map, count]
  have ordered : List.Forall₂ Separates log h.branches := by
    refine grown.ordered sorts fun axis i mem => ?_
    exact numbers i.box (List.mem_of_getElem? (mem_numbered.mp mem)) axis
  -- the order of the branches in which the axes are drawn is that of the log
  have draws := grown.draws
  refine ⟨h, log, rest, grown, built, fun i mem => box_of_mem_leaves built mem, count,
    ordered.length_eq.trans count, ?_, ?_, ?_, ordered⟩
  · rintro n rfl
    rw [AxisSource.ofPolicy, AxisSource.draw_fixed, Prod.mk.injEq, spans] at draws
    rw [← draws.1, List.map_replicate, Axis.index_ofIndex]
  · rintro seed rfl
    rw [AxisSource.ofPolicy, AxisSource.draw_random, Prod.mk.injEq, spans] at draws
    refine ⟨draws.1.symm, draws.2.symm, fun gives => ?_⟩
    obtain ⟨read, stream, axes⟩ :=
      (Random.AxisStream.ofSeed seed).exists_take_eq_accepted gives (boxes.length - 1)
    rw [Random.AxisStream.ofSeed, Nat.zero_add] at stream
    refine ⟨read, ?_, draws.1.symm.trans axes⟩
    rw [← draws.2, Random.AxisStream.ofSeed, stream]
  · rintro rfl
    rw [AxisSource.ofPolicy, AxisSource.draw_longest, Prod.mk.injEq, Hierarchy.spans,
      List.map_map] at draws
    refine ⟨draws.1.symm, fun l r mem => ?_⟩
    obtain ⟨i, leaf⟩ := List.exists_mem_of_length_pos l.leaves_length_pos
    have inside : i ∈ h.leaves := leaves_subset_of_mem_branches mem (List.mem_append_left _ leaf)
    refine Item.centroidBounds_isUnion_map (List.mem_append_left _ leaf) ?_
    exact numbers i.box (List.mem_of_getElem? (box_of_mem_leaves built inside))

/-- Three cubes, two of them with one centre, and two draws from the seed, for which three words are
read. -/
theorem ofBoxes?_splits_cubes :
    let cube := Box.ofCorners (.splat (-1)) (.splat 1)
    let boxes := [cube, .ofCorners (.splat 2) (.splat 4), cube]
    Arrangement.sorted.Sorts ∧ boxes ≠ [] ∧
      (∀ b ∈ boxes, ∀ axis, IsNumber (b.centroid.along axis)) ∧
      ∃ h log, ofBoxes? .sorted boxes (.random 7) = some (.ok h) ∧
        Grown .sorted (.ofPolicy (.random 7)) (numbered boxes) h log
          (.random ((Random.AxisStream.ofSeed 7).after 2)) ∧
        log = (Random.AxisStream.ofSeed 7).take 2 ∧ log = Random.accepted (Random.keyOfSeed 7) 0 3 ∧
        List.Forall₂ Separates log h.branches := by
  intro cube boxes
  have nonempty : boxes ≠ [] := List.cons_ne_nil _ _
  have numbers : ∀ b ∈ boxes, ∀ axis, IsNumber (b.centroid.along axis) := by decide +kernel
  obtain ⟨h, log, rest, grown, built, -, -, -, -, random, -, separated⟩ :=
    ofBoxes?_splits .sorted sorts_sorted boxes (.random 7) nonempty numbers
  obtain ⟨drawn, rfl, reads⟩ := random 7 rfl
  have gives : Random.axisOfWord? (Random.keystream (Random.keyOfSeed 7) 0) ≠ none := by
    decide +kernel
  obtain ⟨read, stream, axes⟩ := reads ⟨0, gives⟩
  have stream : (Random.AxisStream.ofSeed 7).after 2 = ⟨Random.keyOfSeed 7, read⟩ :=
    AxisSource.random.inj stream
  have three : ((Random.AxisStream.ofSeed 7).after 2).position = 3 := by decide +kernel
  obtain rfl : read = 3 := by rwa [stream] at three
  exact ⟨sorts_sorted, nonempty, numbers, h, log, built, grown, drawn, axes, separated⟩

end Hierarchy

end RayTracer
