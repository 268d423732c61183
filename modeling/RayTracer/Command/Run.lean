import RayTracer.Command.Demo
import RayTracer.Command.Host
import RayTracer.Command.Options
import RayTracer.Picture.Pixmap
import RayTracer.Settings.Reader

/-!
# A run of the command

A run renders the demo scene with the settings of the configuration file, over which the options go
field by field. It is a function of the options and of what the file system answers: `read` gives
the content of a file that can be read, and `canCreate` tells whether a file can be written. A run
that fails writes nothing.

`run` says what is to be written and where. `call` is a whole call of the command on a host, which
writes it.
-/

namespace RayTracer.Command

/-- Why a run failed, in the order in which the causes are checked. -/
inductive RunError where
  | unreadableConfig (path : String)
  | malformedConfig (path : String)
  | emptyImage (width height : UInt32)
  | render (cause : RenderError)
  /-- The pixels do not fit into a buffer. -/
  | oversizedImage (width height : UInt32)
  | uncreatable (path : String)
  | unwritable (cause : WriteError)
deriving Repr, DecidableEq

def RunError.message : RunError → String
  | .unreadableConfig path => "Failed to read config " ++ path
  | .malformedConfig path => "Failed to parse config " ++ path
  | .emptyImage width height =>
    "Image dimensions must be positive, got " ++ toString width.toNat ++ "x" ++
      toString height.toNat
  | .render cause => cause.message
  | .oversizedImage _ _ => "capacity overflow"
  | .uncreatable path => "Failed to create " ++ path
  | .unwritable cause => cause.message

/-- The exit code of a failed run. A picture that is out of reach ends the run at once, with a code
of its own. -/
def RunError.exitCode : RunError → UInt32
  | .oversizedImage _ _ => 101
  | _ => 1

/-- What a run writes, and where: to a file, or to the standard output if there is no path. -/
structure Output where
  path : Option String
  text : String
deriving Repr, DecidableEq

/-- The settings of the configuration file, or the defaults if none is named. -/
def configuration (config : Option String) (read : String → Option String) :
    Except RunError Settings :=
  match config with
  | none => .ok default
  | some path =>
    match read path with
    | none => .error (.unreadableConfig path)
    | some text =>
      match Settings.ofText? text with
      | none => .error (.malformedConfig path)
      | some settings => .ok settings

namespace Options

/-- The settings with the given options over them. -/
def overlay (o : Options) (s : Settings) : Settings :=
  { s with
    width := o.width.getD s.width
    height := o.height.getD s.height
    maxDepth := o.depth.getD s.maxDepth
    threads := o.threads <|> s.threads }

end Options

/-- The text of the picture with valid settings, on a machine with a number of workers. -/
def picture (policy : SplitPolicy) (settings : Settings) (machine : Nat) : Except RunError String :=
  match Demo.scene.build policy with
  | .error cause => .error (.render cause)
  | .ok scene =>
    match (Demo.camera settings.aspectRatio).render? scene settings machine with
    | none => .error (.oversizedImage settings.width settings.height)
    | some picture => .ok picture.pixmap

/-- What the options make the command write, before anything is created. -/
def compose (o : Options) (read : String → Option String) (machine : Nat) :
    Except RunError String := do
  let settings := o.overlay (← configuration o.config read)
  if settings.width = 0 ∨ settings.height = 0 then
    .error (.emptyImage settings.width settings.height)
  else picture o.policy settings machine

/-- A run with valid options. -/
def run (o : Options) (read : String → Option String) (canCreate : String → Bool) (machine : Nat) :
    Except RunError Output := do
  let text ← compose o read machine
  match o.output with
  | none => return ⟨none, text⟩
  | some path => if canCreate path then return ⟨some path, text⟩ else .error (.uncreatable path)

/-- How a call of the command ends. -/
inductive Outcome where
  | usage (cause : UsageError)
  | failed (cause : RunError)
  | written (output : Output)
deriving Repr, DecidableEq

/-- The exit code: 2 for refused arguments, that of the cause for a failed run. -/
def Outcome.exitCode : Outcome → UInt32
  | .usage _ => 2
  | .failed cause => cause.exitCode
  | .written _ => 0

/-- Writes an output where it belongs. -/
def Host.deliver (h : Host) (output : Output) : Except WriteError Host :=
  match output.path with
  | none => .ok (h.print output.text)
  | some path => h.write path output.text

/-- A call of the command, with the host as the call leaves it. Arguments are checked before
anything else. -/
def call (arguments : List String) (host : Host) (machine : Nat) : Outcome × Host :=
  match Options.ofArguments arguments with
  | .error cause => (.usage cause, host)
  | .ok o =>
    match run o host.read? host.canCreate machine with
    | .error cause => (.failed cause, host)
    | .ok output =>
      match host.deliver output with
      | .error cause => (.failed (.unwritable cause), host)
      | .ok after => (.written output, after)

end RayTracer.Command
