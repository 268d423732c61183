import Mathlib.Data.List.Nodup
import Mathlib.Logic.Function.Basic

/-!
# Records that are set field by field

Settings and options are both read the same way: from a list that gives some of the fields, each at
most once, a raw value that may not have the form of its field. What comes out is known by its
fields: those that the list gives have their values and the others are as before, in whatever order
they come.
-/

namespace RayTracer

/-- A type of records with a name for each field. -/
structure Fields (name record : Type) [DecidableEq name] where
  Value : name → Type
  get : record → (n : name) → Value n
  put : record → (n : name) → Value n → record
  get_put (r : record) (n : name) (v : Value n) : get (put r n v) = Function.update (get r) n v
  get_injective : Function.Injective get

namespace Fields

variable {name record raw : Type} [DecidableEq name] (F : Fields name record)
  (read? : (n : name) → raw → Option (F.Value n))

/-- Sets a field to a raw value, if that has its form. -/
def set? (r : record) (given : name × raw) : Option record :=
  (read? given.1 given.2).map (F.put r given.1)

theorem set?_eq_some_iff {r s : record} {n : name} {v : raw} :
    F.set? read? r (n, v) = some s ↔
      read? n v = some (F.get s n) ∧ ∀ m, m ≠ n → F.get s m = F.get r m := by
  rw [set?, Option.map_eq_some_iff]
  constructor
  · rintro ⟨value, read, rfl⟩
    refine ⟨?_, fun m other => ?_⟩
    · rw [read, F.get_put, Function.update_self]
    · rw [F.get_put, Function.update_of_ne other]
  · rintro ⟨read, others⟩
    refine ⟨F.get s n, read, F.get_injective ?_⟩
    rw [F.get_put]
    exact (Function.eq_update_iff.mpr ⟨rfl, others⟩).symm

/-- What a list that gives each field at most once leads to. -/
theorem foldlM_set?_eq_some_iff {given : List (name × raw)} (distinct : (given.map Prod.fst).Nodup)
    {r s : record} :
    given.foldlM (F.set? read?) r = some s ↔
      (∀ p ∈ given, read? p.1 p.2 = some (F.get s p.1)) ∧
        ∀ n ∉ given.map Prod.fst, F.get s n = F.get r n := by
  induction given generalizing r with
  | nil =>
    simp only [List.foldlM_nil, pure, Option.some.injEq, List.not_mem_nil, false_implies,
      implies_true, true_and, List.map_nil, not_false_eq_true, true_implies]
    exact ⟨fun same n => by rw [same], fun same => (F.get_injective (funext same)).symm⟩
  | cons first rest ih =>
    obtain ⟨n, v⟩ := first
    rw [List.map_cons, List.nodup_cons] at distinct
    obtain ⟨fresh, distinct⟩ := distinct
    rw [List.foldlM_cons, Option.bind_eq_bind, Option.bind_eq_some_iff, List.forall_mem_cons]
    simp only [ih distinct, List.map_cons, List.mem_cons, not_or]
    constructor
    · rintro ⟨t, set, read, others⟩
      obtain ⟨readFirst, same⟩ := (F.set?_eq_some_iff read?).mp set
      -- the rest of the list does not give the first field again
      refine ⟨⟨readFirst.trans (by rw [others n fresh]), read⟩, fun m new => ?_⟩
      rw [others m new.2, same m new.1]
    · rintro ⟨⟨readFirst, read⟩, others⟩
      refine ⟨F.put r n (F.get s n), by rw [set?, readFirst, Option.map_some], read,
        fun m new => ?_⟩
      rw [F.get_put]
      by_cases same : m = n
      · subst same
        rw [Function.update_self]
      · rw [Function.update_of_ne same, others m ⟨same, new⟩]

theorem foldlM_set?_perm {given given' : List (name × raw)} (order : given'.Perm given)
    (distinct : (given.map Prod.fst).Nodup) (r : record) :
    given'.foldlM (F.set? read?) r = given.foldlM (F.set? read?) r := by
  have names : (given'.map Prod.fst).Perm (given.map Prod.fst) := order.map _
  refine Option.ext fun s => ?_
  rw [F.foldlM_set?_eq_some_iff read? (names.nodup_iff.mpr distinct),
    F.foldlM_set?_eq_some_iff read? distinct]
  simp only [order.mem_iff, names.mem_iff]

end Fields

end RayTracer
