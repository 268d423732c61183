import RayTracer.Command.Contract
import RayTracer.Proofs.Settings.Entries

/-!
# One precedence

The settings with the options over them are those in which each setting comes from its option, else
from the file, else from the defaults.
-/

namespace RayTracer.Command

open Settings (Field)

variable {o : Options} {host : Host} {s t : Settings} {file : Option Json}

/-- The settings of a file alone: those it has the form of, or the defaults if there is no file. -/
def fileSettings? : Option Json → Option Settings
  | none => some default
  | some content => Settings.ofJson? content

theorem get_overlay (o : Options) (s : Settings) (f : Field) :
    (o.overlay s).get f = (o.value? f).getD (s.get f) := by
  cases f with
  | threads =>
    show (o.threads <|> s.threads) = (o.threads.map some).getD s.threads
    cases o.threads <;> rfl
  | width | height | maxDepth | background => rfl

theorem settled_overlay (base : fileSettings? file = some s) (f : Field) :
    Settled o file (o.overlay s) f := by
  have value := get_overlay o s f
  cases given : o.value? f with
  | some v =>
    rw [given, Option.getD_some] at value
    exact .option (given.trans (congrArg some value.symm))
  | none =>
    -- without an option the value is that of the file alone
    rw [given, Option.getD_none] at value
    cases file with
    | none =>
      cases base
      exact .default given rfl value
    | some content =>
      cases entry : f.entry? content with
      | none => exact .default given entry (value.trans (Settings.get_of_no_entry base entry))
      | some v => exact .file given entry (value.symm ▸ Settings.read?_entry base entry)

theorem Settled.unique {f : Field} (first : Settled o file s f) (second : Settled o file t f) :
    s.get f = t.get f := by
  cases first with
  | option given =>
    cases second with
    | option given' => exact Option.some.inj (given.symm.trans given')
    | file absent | default absent => cases given.symm.trans absent
  | file absent entry read =>
    cases second with
    | option given => cases absent.symm.trans given
    | file _ entry' read' =>
      obtain rfl := Option.some.inj (entry.symm.trans entry')
      exact Option.some.inj (read.symm.trans read')
    | default _ missing => cases entry.symm.trans missing
  | default absent missing same =>
    cases second with
    | option given => cases absent.symm.trans given
    | file _ entry => cases missing.symm.trans entry
    | default _ _ same' => exact same.trans same'.symm

theorem forall_settled_iff (base : fileSettings? file = some s) :
    (∀ f, Settled o file t f) ↔ t = o.overlay s := by
  constructor
  · intro settled
    exact Settings.fields.get_injective (funext fun f =>
      (settled f).unique (settled_overlay base f))
  · rintro rfl
    exact settled_overlay base

theorem Configured.configuration_eq (configured : Configured o host file) :
    ∃ s, fileSettings? file = some s ∧ configuration o.config host.read? = .ok s := by
  cases configured with
  | unnamed unnamed =>
    rw [unnamed]
    exact ⟨default, rfl, rfl⟩
  | @named path text content named readable parsed formed =>
    obtain ⟨s, formed⟩ := Option.isSome_iff_exists.mp formed
    have accepted : Settings.ofText? text = some s :=
      Option.bind_eq_some_iff.mpr ⟨content, parsed, formed⟩
    refine ⟨s, formed, ?_⟩
    simp only [configuration, named, readable, accepted]

theorem configured_of_configuration (read : configuration o.config host.read? = .ok s) :
    ∃ file, Configured o host file ∧ fileSettings? file = some s := by
  unfold configuration at read
  split at read
  · rename_i unnamed
    cases read
    exact ⟨none, .unnamed unnamed, rfl⟩
  · rename_i path named
    split at read
    · cases read
    · rename_i text readable
      split at read
      · cases read
      · rename_i settings accepted
        cases read
        obtain ⟨content, parsed, formed⟩ := Option.bind_eq_some_iff.mp accepted
        exact ⟨some content, .named named readable parsed (Option.isSome_of_eq_some formed), formed⟩

/-- The settings that count are those of the file with the options over them. -/
theorem effective_iff :
    Effective o host t ↔ ∃ s, configuration o.config host.read? = .ok s ∧ t = o.overlay s := by
  constructor
  · rintro ⟨file, configured, settled⟩
    obtain ⟨s, base, read⟩ := configured.configuration_eq
    exact ⟨s, read, (forall_settled_iff base).mp settled⟩
  · rintro ⟨s, read, same⟩
    obtain ⟨file, configured, base⟩ := configured_of_configuration read
    exact ⟨file, configured, (forall_settled_iff base).mpr same⟩

/-- A file from which no settings come is a cause to fail. -/
theorem fails_of_configuration {cause : RunError}
    (failed : configuration o.config host.read? = .error cause) :
    Fails o host cause := by
  unfold configuration at failed
  split at failed
  · cases failed
  · rename_i path named
    split at failed
    · rename_i unreadable
      cases failed
      exact .unreadable named unreadable
    · rename_i text readable
      split at failed
      · rename_i malformed
        cases failed
        exact .malformed named readable malformed
      · cases failed

end RayTracer.Command
