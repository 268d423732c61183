import RayTracer.Command.Spelling
import RayTracer.Proofs.Settings.Records

/-!
# Arguments in groups

Arguments are accepted exactly if they are groups, each of which spells an option and its value.
What the options come to depends on the groups alone and not on their order.
-/

namespace RayTracer.Command

theorem ok_of_map_ok {ε α β : Type} {f : α → β} {e : Except ε α} {b : β}
    (mapped : e.map f = .ok b) :
    ∃ a, e = .ok a ∧ f a = b := by
  cases e with
  | error => cases mapped
  | ok a => exact ⟨a, rfl, Except.ok.inj mapped⟩

theorem foldlM_eq_ok_iff {α β ε : Type} {step : β → α → Except ε β} {step? : β → α → Option β}
    (agree : ∀ b a c, step b a = .ok c ↔ step? b a = some c) {given : List α} {b c : β} :
    given.foldlM step b = .ok c ↔ given.foldlM step? b = some c := by
  induction given generalizing b with
  | nil => simp [pure, Except.pure]
  | cons a rest ih =>
    rw [List.foldlM_cons, List.foldlM_cons]
    cases taken : step b a with
    | error cause =>
      have refused : step? b a = none := by
        refine Option.eq_none_iff_forall_ne_some.mpr fun d same => ?_
        rw [← agree, taken] at same
        cases same
      rw [refused]
      exact ⟨nofun, nofun⟩
    | ok d =>
      rw [(agree b a d).mp taken]
      exact ih

/-! ## Groups -/

namespace Argument

theorem classify_eq_endOfOptions {argument : String} (ends : classify argument = .endOfOptions) :
    argument = "--" := by
  refine String.toList_inj.mp ?_
  unfold classify at ends
  split at ends
  · assumption
  · split at ends <;> cases ends
  all_goals cases ends

end Argument

theorem spelled?_singleton {argument value : String} {name : OptionName}
    (names : (Argument.classify argument).option? = some (name, some value)) :
    spelled? [argument] = some (name, value) := by
  rw [spelled?, names]

theorem spelled?_pair {argument next : String} {name : OptionName}
    (names : (Argument.classify argument).option? = some (name, none))
    (value : (Argument.classify next).isPlain = true) :
    spelled? [argument, next] = some (name, next) := by
  rw [spelled?, names]
  exact if_pos value

/-- A group is an argument with its value attached, or one with its value behind it. -/
theorem spelled?_eq_some {group : List String} {name : OptionName} {value : String}
    (spells : spelled? group = some (name, value)) :
    (∃ argument, group = [argument] ∧
      (Argument.classify argument).option? = some (name, some value)) ∨
      ∃ argument, group = [argument, value] ∧
        (Argument.classify argument).option? = some (name, none) ∧
        (Argument.classify value).isPlain = true := by
  match group, spells with
  | [argument], spells =>
    rw [spelled?] at spells
    split at spells
    next attached =>
      cases spells
      exact .inl ⟨argument, rfl, attached⟩
    next => cases spells
  | [argument, next], spells =>
    rw [spelled?] at spells
    split at spells
    next bare =>
      rw [Option.ite_none_right_eq_some] at spells
      obtain ⟨plain, spells⟩ := spells
      cases spells
      exact .inr ⟨argument, rfl, bare, plain⟩
    next => cases spells

theorem assignments_group {group rest : List String} {name : OptionName} {value : String}
    (spells : spelled? group = some (name, value)) :
    assignments (group ++ rest) = (assignments rest).map ((name, value) :: ·) := by
  obtain ⟨argument, rfl, names⟩ | ⟨argument, rfl, names, plain⟩ := spelled?_eq_some spells
  · rw [List.singleton_append, assignments.eq_def]
    cases form : Argument.classify argument <;> simp_all [Argument.option?]
  · rw [List.cons_append, List.singleton_append, assignments.eq_def]
    cases form : Argument.classify argument <;> simp_all [Argument.option?]

theorem assignments_flatten {groups : List (List String)}
    (spells : ∀ group ∈ groups, (spelled? group).isSome) {rest : List String}
    (none_left : assignments rest = .ok []) :
    assignments (groups.flatten ++ rest) = .ok (groups.filterMap spelled?) := by
  induction groups with
  | nil => exact none_left
  | cons group groups ih =>
    rw [List.forall_mem_cons] at spells
    obtain ⟨⟨name, value⟩, first⟩ := Option.isSome_iff_exists.mp spells.1
    rw [List.flatten_cons, List.append_assoc, assignments_group first, ih spells.2,
      List.filterMap_cons_some first]
    rfl

theorem assignments_of_lists {groups : List (List String)} {arguments : List String}
    (lists : Lists groups arguments) : assignments arguments = .ok (groups.filterMap spelled?) := by
  obtain ⟨spells, rfl | rfl⟩ := lists
  · have none_left : assignments [] = .ok [] := rfl
    rw [← assignments_flatten spells none_left, List.append_nil]
  · exact assignments_flatten spells rfl

theorem Lists.cons {group : List String} {groups : List (List String)} {arguments : List String}
    (spells : (spelled? group).isSome) (lists : Lists groups arguments) :
    Lists (group :: groups) (group ++ arguments) := by
  refine ⟨List.forall_mem_cons.mpr ⟨spells, lists.1⟩, ?_⟩
  rw [List.flatten_cons]
  refine lists.2.imp (fun same => ?_) fun same => ?_
  · rw [same]
  · rw [same, List.append_assoc]

theorem exists_lists {arguments : List String} {given : List (OptionName × String)}
    (accepted : assignments arguments = .ok given) : ∃ groups, Lists groups arguments := by
  fun_induction assignments arguments generalizing given with
  | case1 => exact ⟨[], by decide⟩
  | case3 argument marks =>
    rw [Argument.classify_eq_endOfOptions marks]
    exact ⟨[], by decide⟩
  | case6 argument rest name value _ _ names ih =>
    obtain ⟨others, accepted, -⟩ := ok_of_map_ok accepted
    obtain ⟨groups, lists⟩ := ih accepted
    exact ⟨_, .cons (Option.isSome_of_eq_some (spelled?_singleton names)) lists⟩
  | case8 argument name value rest plain _ _ names ih =>
    obtain ⟨others, accepted, -⟩ := ok_of_map_ok accepted
    obtain ⟨groups, lists⟩ := ih accepted
    exact ⟨_, .cons (Option.isSome_of_eq_some (spelled?_pair names plain)) lists⟩
  -- in the other cases the arguments are refused
  | case2 | case4 | case5 | case7 | case9 => cases accepted

/-! ## Options -/

/-- The values of an option. -/
def OptionName.Value : OptionName → Type
  | .config | .output => String
  | .width | .height | .depth => UInt32
  | .threads | .seed => UInt64
  | .split => SplitName

/-- Options are a record of what is given for each name. -/
def Options.fields : Fields OptionName Options where
  Value n := Option n.Value
  get o
    | .config => o.config
    | .width => o.width
    | .height => o.height
    | .depth => o.depth
    | .threads => o.threads
    | .output => o.output
    | .split => o.split
    | .seed => o.seed
  put o
    | .config, v => { o with config := v }
    | .width, v => { o with width := v }
    | .height, v => { o with height := v }
    | .depth, v => { o with depth := v }
    | .threads, v => { o with threads := v }
    | .output, v => { o with output := v }
    | .split, v => { o with split := v }
    | .seed, v => { o with seed := v }
  get_put o n v := by
    funext m
    cases n <;> cases m <;> rfl
  get_injective o p same := by
    obtain ⟨config, width, height, depth, threads, output, split, seed⟩ := o
    obtain ⟨config', width', height', depth', threads', output', split', seed'⟩ := p
    rw [Options.mk.injEq]
    exact ⟨congrFun same .config, congrFun same .width, congrFun same .height, congrFun same .depth,
      congrFun same .threads, congrFun same .output, congrFun same .split, congrFun same .seed⟩

/-- Reads a value, if it has the form of the option. -/
def OptionName.read? : (n : OptionName) → String → Option n.Value
  | .config | .output => path?
  | .width | .height | .depth => word32?
  | .threads | .seed => word64?
  | .split => SplitName.ofString?

namespace Options

/-- What a value gives an option, if it has the form of the option. -/
def given? (n : OptionName) (value : String) : Option (fields.Value n) := (n.read? value).map some

theorem set?_eq (o : Options) (value : String) (n : OptionName) :
    o.set? value n = fields.set? given? o (n, value) := by
  have put : o.set? value n = (n.read? value).map fun v => fields.put o n (some v) := by
    cases n <;> rfl
  rw [put]
  exact (Option.map_map ..).symm

theorem ofAssignments_eq_ok_iff {given : List (OptionName × String)} {o : Options} :
    ofAssignments given = .ok o ↔ (given.map Prod.fst).Nodup ∧
      given.foldlM (fields.set? given?) {} = some o := by
  rw [ofAssignments]
  split
  · rename_i distinct
    rw [and_iff_right distinct]
    refine foldlM_eq_ok_iff fun o (n, value) p => ?_
    rw [← set?_eq]
    cases set : o.set? value n <;> simp [set]
  · rename_i repeated
    simp [repeated]

/-- What the options come to does not depend on the order in which they are given. -/
theorem ofAssignments_perm {given given' : List (OptionName × String)} {o : Options}
    (order : given'.Perm given) (accepted : ofAssignments given = .ok o) :
    ofAssignments given' = .ok o := by
  rw [ofAssignments_eq_ok_iff] at accepted ⊢
  obtain ⟨distinct, assigned⟩ := accepted
  refine ⟨(order.map _).nodup_iff.mpr distinct, ?_⟩
  exact (fields.foldlM_set?_perm _ order distinct {}).trans assigned

theorem exists_groups {arguments : List String} {o : Options}
    (accepted : ofArguments arguments = .ok o) :
    ∃ groups, Lists groups arguments := by
  rw [ofArguments] at accepted
  cases listed : assignments arguments with
  | error cause =>
    rw [listed] at accepted
    cases accepted
  | ok given => exact exists_lists listed

/-- Groups in another order come to the same options. -/
theorem ofArguments_perm {groups groups' : List (List String)} {arguments arguments' : List String}
    {o : Options} (lists : Lists groups arguments) (lists' : Lists groups' arguments')
    (order : groups'.Perm groups) (accepted : ofArguments arguments = .ok o) :
    ofArguments arguments' = .ok o := by
  rw [ofArguments, assignments_of_lists lists] at accepted
  rw [ofArguments, assignments_of_lists lists']
  exact ofAssignments_perm (order.filterMap _) accepted

end Options

end RayTracer.Command
