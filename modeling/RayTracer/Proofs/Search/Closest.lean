import RayTracer.Proofs.Surface.Narrowing
import RayTracer.Scene

/-! # The closest hit

What a search is to find, said without a search: each shape is tested alone over the whole range,
and of all the hits the one with the least parameter counts, at equal parameters the one with the
least number.

* `IsBest` is the invariant that a search keeps: what it carries is the closest hit among the
  objects that were tested so far. `IsBest.consider` is its step; it rests on the narrowing law of
  the shapes.
* `traceLinear_eq_closest`: the scan over all objects finds the closest hit of all.
-/

namespace RayTracer

open Number

section

variable (shapes : Array Shape) (ray : Ray) (range : Interval)

/-- The hit is what the object that it names writes when it is tested alone over the whole range. -/
def Meets (h : Hit) : Prop :=
  ∃ s, shapes[h.object]? = some s ∧ s.contact? ray range = some h.toContact

/-- Less or equal in the order of parameters, and at equal parameters in that of numbers. -/
def Hit.Precedes (a b : Hit) : Prop :=
  a.t < b.t ∨ (a.t == b.t) = true ∧ a.object ≤ b.object

/-- A hit of the whole range that precedes every other one. -/
def IsClosest (w : Hit) : Prop :=
  Meets shapes ray range w ∧ ∀ h, Meets shapes ray range h → w.Precedes h

/-- The closest hit among the objects that were tested. -/
def IsBest (tested : ℕ → Prop) : Option Hit → Prop
  | none => ∀ h, Meets shapes ray range h → ¬tested h.object
  | some w => Meets shapes ray range w ∧ tested w.object ∧
      ∀ h, Meets shapes ray range h → tested h.object → w.Precedes h

end

variable {shapes : Array Shape} {ray : Ray} {range : Interval} {tested : ℕ → Prop}

/-! ## The order of hits -/

theorem Meets.contains {h : Hit} (meets : Meets shapes ray range h) :
    range.contains h.t = true := by
  obtain ⟨s, -, contact⟩ := meets
  exact Shape.contains_of_parameter? (Shape.contact?_eq_some_iff.mp contact).1

theorem Meets.isNumber {h : Hit} (meets : Meets shapes ray range h) : IsNumber h.t :=
  Interval.isNumber_of_contains meets.contains

/-- The cut at a hit of the range shortens the range. -/
theorem Meets.le_hi {h : Hit} (meets : Meets shapes ray range h) : h.t ≤ range.hi :=
  ((range.contains_iff h.t).mp meets.contains).2

/-- An object has one hit. -/
theorem Meets.eq_of_object_eq {a b : Hit} (left : Meets shapes ray range a)
    (right : Meets shapes ray range b) (same : a.object = b.object) : a = b := by
  obtain ⟨s, atA, contactA⟩ := left
  obtain ⟨s', atB, contactB⟩ := right
  rw [← same, atA] at atB
  rw [← Option.some.inj atB, contactA] at contactB
  cases a
  cases b
  exact congr (congrArg Hit.mk (Option.some.inj contactB)) same

/-- The order of hits as a linear one. -/
noncomputable def Hit.key (h : Hit) : EReal ×ₗ ℕ := toLex (value h.t, h.object)

theorem Hit.precedes_iff {a b : Hit} (ha : IsNumber a.t) (hb : IsNumber b.t) :
    a.Precedes b ↔ a.key ≤ b.key := by
  simp only [Precedes, lt_iff, beq_iff, ha, hb, true_and, key, Prod.Lex.le_iff, ofLex_toLex]

theorem Hit.isCloser_iff {a b : Hit} (ha : IsNumber a.t) (hb : IsNumber b.t) :
    a.isCloser b = true ↔ a.key < b.key := by
  simp only [isCloser, Bool.or_eq_true, Bool.and_eq_true, decide_eq_true_eq, lt_iff, beq_iff, ha,
    hb, true_and, key, Prod.Lex.lt_iff, ofLex_toLex]

theorem Hit.isCloser_eq_false_iff {a b : Hit} (ha : IsNumber a.t) (hb : IsNumber b.t) :
    a.isCloser b = false ↔ b.Precedes a := by
  rw [← Bool.not_eq_true, isCloser_iff ha hb, precedes_iff hb ha, not_lt]

theorem Meets.precedes_self {h : Hit} (meets : Meets shapes ray range h) : h.Precedes h :=
  (Hit.precedes_iff meets.isNumber meets.isNumber).mpr le_rfl

theorem Meets.eq_of_precedes {a b : Hit} (left : Meets shapes ray range a)
    (right : Meets shapes ray range b) (before : a.Precedes b) (after : b.Precedes a) : a = b := by
  rw [Hit.precedes_iff left.isNumber right.isNumber] at before
  rw [Hit.precedes_iff right.isNumber left.isNumber] at after
  have keys : (value a.t, a.object) = (value b.t, b.object) := toLex_inj.mp (before.antisymm after)
  exact left.eq_of_object_eq right (Prod.mk.inj keys).2

theorem IsClosest.unique {a b : Hit} (left : IsClosest shapes ray range a)
    (right : IsClosest shapes ray range b) :
    a = b :=
  left.1.eq_of_precedes right.1 (left.2 b right.1) (right.2 a left.1)

/-! ## One more object -/

/-- Without a best hit yet, the contact over the whole range is the first one. -/
theorem IsBest.consider_none {object : ℕ} {s : Shape} (best : IsBest shapes ray range tested none)
    (there : shapes[object]? = some s) :
    IsBest shapes ray range (fun n => tested n ∨ n = object)
      (Hit.consider ray range object s none) := by
  unfold Hit.consider
  cases contact : s.contact? ray (range.upTo none) with
  | none =>
    rintro h meets (earlier | rfl)
    · exact best h meets earlier
    · obtain ⟨s', found, hit⟩ := meets
      rw [there] at found
      rw [← Option.some.inj found] at hit
      exact Option.some_ne_none _ (hit.symm.trans contact)
  | some c =>
    have meets : Meets shapes ray range { c with object } := ⟨s, there, contact⟩
    refine ⟨meets, .inr rfl, ?_⟩
    rintro h other (earlier | same)
    · exact absurd earlier (best h other)
    · rw [other.eq_of_object_eq meets same]
      exact meets.precedes_self

/-- The range is cut at the best hit, so the object is found exactly if it is not behind that
one. -/
theorem IsBest.consider_some {object : ℕ} {s : Shape} {b : Hit}
    (best : IsBest shapes ray range tested (some b)) (there : shapes[object]? = some s) :
    IsBest shapes ray range (fun n => tested n ∨ n = object)
      (Hit.consider ray range object s (some b)) := by
  obtain ⟨meetsB, testedB, least⟩ := best
  unfold Hit.consider
  cases contact : s.contact? ray (range.upTo (some b)) with
  | none =>
    refine ⟨meetsB, .inl testedB, ?_⟩
    rintro h meets (earlier | rfl)
    · exact least h meets earlier
    · obtain ⟨s', found, hit⟩ := meets
      rw [there] at found
      rw [← Option.some.inj found] at hit
      -- Not being found, the object is behind the cut.
      have behind : ¬h.t ≤ b.t := fun before =>
        Option.some_ne_none _ (((s.contact?_withHi meetsB.le_hi).mpr ⟨hit, before⟩).symm.trans
          contact)
      have numberH : IsNumber h.t := Meets.isNumber ⟨s, there, hit⟩
      rw [le_iff] at behind
      refine .inl ((lt_iff _ _).mpr ⟨meetsB.isNumber, numberH, ?_⟩)
      exact not_le.mp fun before => behind ⟨numberH, meetsB.isNumber, before⟩
  | some c =>
    have whole := (s.contact?_withHi meetsB.le_hi).mp contact
    have meets : Meets shapes ray range { c with object } := ⟨s, there, whole.1⟩
    -- the object is not behind the cut, so only its number can keep it from being the closest
    show IsBest shapes ray range _ (some (if Hit.isCloser { c with object } b then { c with object }
      else b))
    split_ifs with closer
    · have before := (Hit.isCloser_iff meets.isNumber meetsB.isNumber).mp closer
      refine ⟨meets, .inr rfl, ?_⟩
      rintro h other (earlier | same)
      · have after := (Hit.precedes_iff meetsB.isNumber other.isNumber).mp (least h other earlier)
        exact (Hit.precedes_iff meets.isNumber other.isNumber).mpr (before.le.trans after)
      · rw [other.eq_of_object_eq meets same]
        exact meets.precedes_self
    · have before := (Hit.isCloser_eq_false_iff meets.isNumber meetsB.isNumber).mp
        (Bool.not_eq_true _ ▸ closer)
      refine ⟨meetsB, .inl testedB, ?_⟩
      rintro h other (earlier | same)
      · exact least h other earlier
      · rwa [other.eq_of_object_eq meets same]

theorem IsBest.consider {object : ℕ} {s : Shape} {best : Option Hit}
    (inv : IsBest shapes ray range tested best) (there : shapes[object]? = some s) :
    IsBest shapes ray range (fun n => tested n ∨ n = object)
      (Hit.consider ray range object s best) := by
  cases best with
  | none => exact inv.consider_none there
  | some b => exact inv.consider_some there

theorem IsBest.congr {tested' : ℕ → Prop} {best : Option Hit}
    (inv : IsBest shapes ray range tested best) (same : ∀ n, tested n ↔ tested' n) :
    IsBest shapes ray range tested' best := by
  rwa [← funext fun n => propext (same n)]

/-! ## All objects -/

theorem isBest_none : IsBest shapes ray range (fun _ => False) none := fun _ _ tested => tested

/-- After the first `k` objects the scan carries the closest hit among them. -/
theorem isBest_fold (k : ℕ) (within : k ≤ shapes.size) :
    IsBest shapes ray range (· < k)
      (k.fold (fun object h best =>
        have inside : object < shapes.size := h.trans_le within
        Hit.consider ray range object shapes[object] best) none) := by
  induction k with
  | zero => exact isBest_none.congr fun n => ⟨False.elim, Nat.not_lt_zero n⟩
  | succ k ih =>
    rw [Nat.fold_succ]
    have next : shapes[k]? = some shapes[k] := Array.getElem?_eq_getElem within
    exact ((ih (Nat.le_of_succ_le within)).consider next).congr fun n => by omega

theorem isBest_scan : IsBest shapes ray range (· < shapes.size) (scan shapes ray range) :=
  isBest_fold shapes.size le_rfl

theorem Meets.inside {h : Hit} (meets : Meets shapes ray range h) : h.object < shapes.size := by
  obtain ⟨s, found, -⟩ := meets
  exact (Array.getElem?_eq_some_iff.mp found).1

theorem isClosest_of_isBest {w : Hit} (best : IsBest shapes ray range (· < shapes.size) (some w)) :
    IsClosest shapes ray range w :=
  ⟨best.1, fun h meets => best.2.2 h meets meets.inside⟩

/-- The scan finds the closest hit of the whole range: none exactly if no object is met when it is
tested alone, and otherwise the one that the least object in the order of parameters and numbers
writes. -/
theorem traceLinear_eq_closest (scene : Scene) (ray : Ray) (range : Interval) :
    (scene.traceLinear ray range = none ↔ ∀ h, ¬Meets scene.shapes ray range h) ∧
      ∀ w, scene.traceLinear ray range = some w ↔ IsClosest scene.shapes ray range w := by
  have best : IsBest scene.shapes ray range (· < scene.shapes.size) (scene.traceLinear ray range) :=
    isBest_scan
  cases found : scene.traceLinear ray range with
  | none =>
    rw [found] at best
    have nothing : ∀ h, ¬Meets scene.shapes ray range h := fun h meets => best h meets meets.inside
    refine ⟨⟨fun _ => nothing, fun _ => rfl⟩, fun w => ⟨nofun, fun closest => ?_⟩⟩
    exact absurd closest.1 (nothing w)
  | some v =>
    rw [found] at best
    refine ⟨⟨nofun, fun nothing => absurd best.1 (nothing v)⟩, fun w => ⟨?_, fun closest => ?_⟩⟩
    · rintro ⟨⟩
      exact isClosest_of_isBest best
    · rw [(isClosest_of_isBest best).unique closest]

end RayTracer
