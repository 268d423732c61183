import RayTracer.Proofs.Settings.Records
import RayTracer.Settings.Field

/-!
# What settings in JSON say

Settings that are read from JSON have in each field the value of its entry, or else the default.
-/

namespace RayTracer.Settings

namespace Field

theorem ofKey?_key (f : Field) : ofKey? f.key = some f := by
  cases f <;> rfl

theorem key_of_ofKey? {key : String} {f : Field} (found : ofKey? key = some f) : f.key = key := by
  have named := List.find?_some found
  exact eq_of_beq named

theorem key_injective : Function.Injective key := fun f g same =>
  Option.some.inj ((f.ofKey?_key).symm.trans (same ▸ g.ofKey?_key))

theorem mem_all (f : Field) : f ∈ all := by
  cases f <;> decide

theorem getElem?_all {f : Field} {i : ℕ} : all[i]? = some f ↔ i = f.index := by
  have there : all[f.index]? = some f := List.getElem?_idxOf f.mem_all
  constructor
  · intro at_i
    have inside : i < all.length := (List.getElem?_eq_some_iff.mp at_i).1
    exact (List.getElem?_inj inside (by decide)).mp (at_i.trans there.symm)
  · rintro rfl
    exact there

end Field

/-- A setting is a record of its fields. -/
def fields : Fields Field Settings where
  Value := Field.Value
  get := get
  put s
    | .width, v => { s with width := v }
    | .height, v => { s with height := v }
    | .maxDepth, v => { s with maxDepth := v }
    | .threads, v => { s with threads := v }
    | .background, v => { s with background := v }
  get_put s f v := by
    funext g
    cases f <;> cases g <;> rfl
  get_injective s t same := by
    obtain ⟨width, height, maxDepth, threads, background⟩ := s
    obtain ⟨width', height', maxDepth', threads', background'⟩ := t
    rw [Settings.mk.injEq]
    exact ⟨congrFun same .width, congrFun same .height, congrFun same .maxDepth,
      congrFun same .threads, congrFun same .background⟩

theorem ofFields?_eq (given : List (Field × Json)) :
    ofFields? given = given.foldlM (fields.set? Field.read?) default := by
  have step :
      (fun (s : Settings) (p : Field × Json) => s.assign? p.2 p.1) = fields.set? Field.read? := by
    funext s ⟨f, v⟩
    cases f <;> rfl
  rw [← step]
  rfl

theorem mem_fields?_iff {members : List (Option String × Json)} {given : List (Field × Json)}
    (found : fields? members = some given) (distinct : (given.map Prod.fst).Nodup) {f : Field}
    {v : Json} :
    (f, v) ∈ given ↔ members.lookup (some f.key) = some v := by
  fun_induction fields? members generalizing given with
  | case1 =>
    cases found
    simp
  | case2 => cases found
  | case3 key w rest unknown ih =>
    -- a key that is no setting is not that of the field either
    have other : f.key ≠ key := by
      rintro rfl
      rw [f.ofKey?_key] at unknown
      cases unknown
    rw [ih found distinct, List.lookup_cons,
      beq_false_of_ne (fun same => other (Option.some.inj same))]
  | case4 key w rest g known ih =>
    obtain ⟨others, foundRest, rfl⟩ := Option.map_eq_some_iff.mp found
    rw [List.map_cons, List.nodup_cons] at distinct
    obtain rfl := Field.key_of_ofKey? known
    rw [List.mem_cons, List.lookup_cons]
    by_cases same : f = g
    · subst same
      -- the field does not come twice, so the rest has nothing to add
      have fresh : (f, v) ∉ others := fun mem => distinct.1 (List.mem_map.mpr ⟨_, mem, rfl⟩)
      rw [beq_self_eq_true]
      simp [fresh, eq_comm]
    · rw [ih foundRest distinct.2, beq_false_of_ne fun keys =>
        same (Field.key_injective (Option.some.inj keys))]
      simp [same]

theorem mem_zip_all_iff {items : List Json} {f : Field} {v : Json} :
    (f, v) ∈ Field.all.zip items ↔ items[f.index]? = some v := by
  rw [List.mem_iff_getElem?]
  simp only [List.getElem?_zip_eq_some, Field.getElem?_all, exists_eq_left]

theorem nodup_zip_all (items : List Json) : ((Field.all.zip items).map Prod.fst).Nodup := by
  have distinct : Field.all.Nodup := by decide
  rw [List.zip_eq_zip_take_min, List.map_fst_zip (by simp)]
  exact distinct.sublist (List.take_sublist ..)

/-- Settings come from a list of entries, each field at most once. -/
theorem exists_entries {content : Json} {s : Settings} (read : ofJson? content = some s) :
    ∃ given : List (Field × Json), (given.map Prod.fst).Nodup ∧ ofFields? given = some s ∧
      ∀ f v, (f, v) ∈ given ↔ f.entry? content = some v := by
  cases content with
  | scalar => cases read
  | array items =>
    rw [ofJson?, Option.ite_none_right_eq_some] at read
    exact ⟨_, nodup_zip_all items, read.2, fun _ _ => mem_zip_all_iff⟩
  | object members =>
    obtain ⟨given, found, read⟩ := Option.bind_eq_some_iff.mp read
    rw [Option.ite_none_right_eq_some] at read
    exact ⟨given, read.1, read.2, fun _ _ => mem_fields?_iff found read.1⟩

theorem read?_entry {content v : Json} {s : Settings} {f : Field} (read : ofJson? content = some s)
    (entry : f.entry? content = some v) : f.read? v = some (s.get f) := by
  obtain ⟨given, distinct, read, mem⟩ := exists_entries read
  rw [ofFields?_eq, fields.foldlM_set?_eq_some_iff Field.read? distinct] at read
  exact read.1 (f, v) ((mem f v).mpr entry)

theorem get_of_no_entry {content : Json} {s : Settings} {f : Field}
    (read : ofJson? content = some s) (missing : f.entry? content = none) :
    s.get f = (default : Settings).get f := by
  obtain ⟨given, distinct, read, mem⟩ := exists_entries read
  rw [ofFields?_eq, fields.foldlM_set?_eq_some_iff Field.read? distinct] at read
  refine read.2 f fun named => ?_
  obtain ⟨⟨g, v⟩, entry, rfl⟩ := List.mem_map.mp named
  rw [mem, missing] at entry
  cases entry

end RayTracer.Settings
