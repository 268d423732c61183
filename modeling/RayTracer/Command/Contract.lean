import RayTracer.Command.Run
import RayTracer.Settings.Field

/-!
# What a run owes its caller

The settings that count, the causes for which a run fails, and what a run that does not fail leaves
on the host. All of it is stated on the options and the host, apart from how a run goes about it.
-/

namespace RayTracer.Command

open Settings (Field)

/-- The value that the options give a setting. The background has no option. -/
def Options.value? (o : Options) : (f : Field) → Option f.Value
  | .width => o.width
  | .height => o.height
  | .maxDepth => o.depth
  | .threads => o.threads.map some
  | .background => none

/-- The content of the configuration file: `none` if none is named, else JSON that has the form of
settings. -/
inductive Configured (o : Options) (host : Host) : Option Json → Prop where
  | unnamed (absent : o.config = none) : Configured o host none
  | named {path text : String} {content : Json} (named : o.config = some path)
      (readable : host.read? path = some text) (parsed : Json.ofText? text = some content)
      (formed : (Settings.ofJson? content).isSome) : Configured o host (some content)

/-- Where the value of a setting comes from: its option, else the file, else the defaults. -/
inductive Settled (o : Options) (file : Option Json) (s : Settings) (f : Field) : Prop where
  | option (given : o.value? f = some (s.get f))
  | file {v : Json} (absent : o.value? f = none) (entry : file.bind f.entry? = some v)
      (read : f.read? v = some (s.get f))
  | default (absent : o.value? f = none) (missing : file.bind f.entry? = none)
      (same : s.get f = (default : Settings).get f)

/-- The settings that count. -/
def Effective (o : Options) (host : Host) (s : Settings) : Prop :=
  ∃ file, Configured o host file ∧ ∀ f, Settled o file s f

/-- The settings have pixels. -/
def HasPixels (s : Settings) : Prop := s.width ≠ 0 ∧ s.height ≠ 0

instance (s : Settings) : Decidable (HasPixels s) := inferInstanceAs (Decidable (_ ∧ _))

/-- The pixels of the settings fit into a buffer. -/
def FitsBuffer (s : Settings) : Prop :=
  Buffer.Fits Picture.pixelSize (s.width.toNat * s.height.toNat)

instance (s : Settings) : Decidable (FitsBuffer s) := inferInstanceAs (Decidable (Buffer.Fits _ _))

/-- The first cause for which a run fails. -/
inductive Fails (o : Options) (host : Host) : RunError → Prop where
  | unreadable {path : String} (named : o.config = some path) (shut : host.read? path = none) :
      Fails o host (.unreadableConfig path)
  | malformed {path text : String} (named : o.config = some path)
      (readable : host.read? path = some text)
      (refused : Settings.ofText? text = none) : Fails o host (.malformedConfig path)
  | empty {s : Settings} (effective : Effective o host s) (blank : s.width = 0 ∨ s.height = 0) :
      Fails o host (.emptyImage s.width s.height)
  | oversized {s : Settings} (effective : Effective o host s) (nonempty : HasPixels s)
      (large : ¬FitsBuffer s) :
      Fails o host (.oversizedImage s.width s.height)
  | uncreatable {s : Settings} {path : String} (effective : Effective o host s)
      (nonempty : HasPixels s)
      (fits : FitsBuffer s) (named : o.output = some path) (shut : host.canCreate path = false) :
      Fails o host (.uncreatable path)

/-- The picture of the demo scene under a policy, with any number of workers. -/
def Shows (policy : SplitPolicy) (s : Settings) (image : Picture) : Prop :=
  ∃ scene, Demo.scene.build policy = .ok scene ∧
    ∀ workers, (Demo.camera s.aspectRatio).render? scene s workers = some image

/-- The host after a text has gone to a path, or to the standard output if there is none. Only what
the path leads to has changed. -/
inductive Received (host : Host) (text : String) (after : Host) : Option String → Prop where
  | printed (same : after = host.print text) : Received host text after none
  | device {path : String} {location : Location} {d : Device}
      (leads : host.locate? path = some location) (there : host.node? location = some (.device d))
      (taken : host.writeDevice text d = .ok after) :
      Received host text after (some path)
  | file {path : String} {location : Location} (leads : host.locate? path = some location)
      (plain : ∀ d, host.node? location ≠ some (.device d)) (reads : after.read? path = some text)
      (others : ∀ other ≠ location, after.node? other = host.node? other)
      (quiet : after.printed = host.printed) :
      Received host text after (some path)

end RayTracer.Command
