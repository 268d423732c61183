import RayTracer.Hierarchy.Split

/-!
# Command-line options

Each option takes a value: attached to its long name by `=`, attached to its letter with or without
`=`, or as the next argument. A next argument that looks like an option is not taken; a single `-`
does not look like one. An argument `--` ends the options. There are no positional arguments, and no
option may come twice, so the order of the options makes no difference.
-/

namespace RayTracer.Command

/-- Why the arguments were refused. -/
inductive UsageError where
  | unknownOption (argument : String)
  | unexpectedArgument (argument : String)
  | missingValue (argument : String)
  | badValue (value : String)
  | repeated
deriving Repr, DecidableEq

def UsageError.message : UsageError → String
  | .unknownOption argument => "unknown option " ++ argument
  | .unexpectedArgument argument => "unexpected argument " ++ argument
  | .missingValue argument => "no value for " ++ argument
  | .badValue value => "invalid value " ++ value
  | .repeated => "an option is given twice"

inductive OptionName where
  | config
  | width
  | height
  | depth
  | threads
  | output
  | split
  | seed
deriving Repr, DecidableEq

namespace OptionName

def long : OptionName → String
  | .config => "config"
  | .width => "width"
  | .height => "height"
  | .depth => "depth"
  | .threads => "threads"
  | .output => "output"
  | .split => "split"
  | .seed => "seed"

def all : List OptionName := [.config, .width, .height, .depth, .threads, .output, .split, .seed]

/-- Long names are not abbreviated. -/
def ofLong? (name : String) : Option OptionName := all.find? (·.long == name)

def ofLetter? : Char → Option OptionName
  | 'c' => some .config
  | 'd' => some .depth
  | 't' => some .threads
  | 'o' => some .output
  | _ => none

end OptionName

/-! ## Arguments -/

/-- What an argument is by its form. -/
inductive Argument where
  | endOfOptions
  | long (name : String) (value : Option String)
  | short (letter : Char) (value : Option String)
  | plain

namespace Argument

def classify (argument : String) : Argument :=
  match argument.toList with
  | ['-', '-'] => endOfOptions
  | '-' :: '-' :: rest =>
    match rest.dropWhile (· ≠ '=') with
    | _ :: value => long (String.ofList (rest.takeWhile (· ≠ '='))) (some (String.ofList value))
    | [] => long (String.ofList rest) none
  | ['-', letter] => short letter none
  | '-' :: letter :: '=' :: value => short letter (some (String.ofList value))
  | '-' :: letter :: value => short letter (some (String.ofList value))
  | _ => plain

def isPlain : Argument → Bool
  | plain => true
  | _ => false

/-- The option that an argument names, and the value attached to it. -/
def option? : Argument → Option (OptionName × Option String)
  | long name value => (OptionName.ofLong? name).map (·, value)
  | short letter value => (OptionName.ofLetter? letter).map (·, value)
  | _ => none

end Argument

/-- The options with their values, in the order in which they come. -/
def assignments : List String → Except UsageError (List (OptionName × String))
  | [] => .ok []
  | argument :: rest =>
    match Argument.classify argument with
    | .plain => .error (.unexpectedArgument argument)
    | .endOfOptions =>
      match rest with
      | [] => .ok []
      | next :: _ => .error (.unexpectedArgument next)
    | a =>
      match a.option? with
      | none => .error (.unknownOption argument)
      | some (name, some value) => (assignments rest).map ((name, value) :: ·)
      | some (name, none) =>
        match rest with
        | [] => .error (.missingValue argument)
        | next :: rest =>
          if (Argument.classify next).isPlain then (assignments rest).map ((name, next) :: ·)
          else .error (.missingValue argument)

/-! ## Values -/

/-- The value of one decimal digit or more. -/
def decimal? (cs : List Char) : Option Nat :=
  if cs ≠ [] ∧ cs.all Char.isDigit then
    some (cs.foldl (fun n c => 10 * n + (c.toNat - '0'.toNat)) 0)
  else none

/-- An unsigned 64-bit integer, which may have a plus sign. -/
def word64? (value : String) : Option UInt64 := do
  let digits := match value.toList with
    | '+' :: rest => rest
    | cs => cs
  let n ← decimal? digits
  if n < UInt64.size then some (UInt64.ofNat n) else none

/-- An unsigned 32-bit integer. It is read with its sign and then checked for its range, so a
negative zero is in range. -/
def word32? (value : String) : Option UInt32 := do
  match value.toList with
  | '-' :: rest => if (← decimal? rest) = 0 then some 0 else none
  | _ =>
    let n ← word64? value
    if n.toNat < UInt32.size then some n.toUInt32 else none

/-- A path must have a character. -/
def path? (value : String) : Option String := if value.isEmpty then none else some value

/-- How the splits of the demo scene are chosen; a seed belongs to random ones alone. -/
inductive SplitName where
  | longest
  | random
  | fixed (axis : Axis)
deriving Repr, DecidableEq

namespace SplitName

def ofString? : String → Option SplitName
  | "longest" => some .longest
  | "random" => some .random
  | "fixed-x" => some (.fixed .x)
  | "fixed-y" => some (.fixed .y)
  | "fixed-z" => some (.fixed .z)
  | _ => none

def policy (seed : UInt64) : SplitName → SplitPolicy
  | .longest => .longest
  | .random => .random seed
  | .fixed axis => .fixed axis.index

end SplitName

/-! ## Options -/

/-- The options of a run; `none` is an option that is not given. -/
structure Options where
  config : Option String := none
  width : Option UInt32 := none
  height : Option UInt32 := none
  depth : Option UInt32 := none
  threads : Option UInt64 := none
  output : Option String := none
  split : Option SplitName := none
  seed : Option UInt64 := none
deriving Repr, DecidableEq

namespace Options

/-- Gives an option a value, if the value has its form. -/
def set? (o : Options) (value : String) : OptionName → Option Options
  | .config => (path? value).map fun v => { o with config := some v }
  | .width => (word32? value).map fun v => { o with width := some v }
  | .height => (word32? value).map fun v => { o with height := some v }
  | .depth => (word32? value).map fun v => { o with depth := some v }
  | .threads => (word64? value).map fun v => { o with threads := some v }
  | .output => (path? value).map fun v => { o with output := some v }
  | .split => (SplitName.ofString? value).map fun v => { o with split := some v }
  | .seed => (word64? value).map fun v => { o with seed := some v }

def ofAssignments (given : List (OptionName × String)) : Except UsageError Options :=
  if (given.map Prod.fst).Nodup then
    given.foldlM (fun o (name, value) =>
      match o.set? value name with
      | some o => .ok o
      | none => .error (.badValue value)) {}
  else .error .repeated

/-- The options that the arguments give. -/
def ofArguments (arguments : List String) : Except UsageError Options :=
  assignments arguments >>= ofAssignments

/-- The split policy; without options the longest axis, and seed 0. -/
def policy (o : Options) : SplitPolicy := (o.split.getD .longest).policy (o.seed.getD 0)

end Options

end RayTracer.Command
