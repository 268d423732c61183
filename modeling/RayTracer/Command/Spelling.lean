import RayTracer.Command.Options

/-!
# How options are spelled

A list of arguments is a list of groups, one for each option: an argument with its value attached,
or one with its value as the next argument. The end of the options may be marked.
-/

namespace RayTracer.Command

/-- The option that a group gives, with its value. -/
def spelled? : List String → Option (OptionName × String)
  | [argument] =>
    match (Argument.classify argument).option? with
    | some (name, some value) => some (name, value)
    | _ => none
  | [argument, next] =>
    match (Argument.classify argument).option? with
    | some (name, none) => if (Argument.classify next).isPlain then some (name, next) else none
    | _ => none
  | _ => none

/-- The arguments are these groups one after the other, perhaps with a mark at the end. -/
def Lists (groups : List (List String)) (arguments : List String) : Prop :=
  (∀ group ∈ groups, (spelled? group).isSome) ∧
    (arguments = groups.flatten ∨ arguments = groups.flatten ++ ["--"])

instance (groups : List (List String)) (arguments : List String) :
    Decidable (Lists groups arguments) :=
  inferInstanceAs (Decidable (_ ∧ _))

end RayTracer.Command
