import Mathlib.Tactic.SplitIfs
import RayTracer.Command.Contract

/-!
# Delivery

A text that is written where a path leads is what the path reads afterwards, and nothing else on the
host has changed. A new file is in nobody's way: walks turn on directories and links alone.
-/

namespace RayTracer.Command.Host

variable {h h' : Host}

/-- Walks along the same directories and links come to the same places. -/
theorem advance_congr (directories : ∀ l, h'.isDirectory l = h.isDirectory l)
    (links : ∀ l path, h'.node? l = some (.link path) ↔ h.node? l = some (.link path))
    (l : Location) (names : List String) : h'.advance l names = h.advance l names := by
  induction names generalizing l with
  | nil => rfl
  | cons name rest ih =>
    unfold advance
    rw [directories, ih, ih, ih]
    split_ifs
    any_goals rfl
    -- the walks could only part where one of them meets a link
    split
    · rename_i path link
      rw [(links _ path).mp link]
    · rename_i unlinked
      split
      · rename_i path link
        exact absurd ((links _ path).mpr link) (unlinked path)
      · rfl

theorem walk?_congr (directories : ∀ l, h'.isDirectory l = h.isDirectory l)
    (links : ∀ l path, h'.node? l = some (.link path) ↔ h.node? l = some (.link path)) (count : Nat)
    (l : Location) (names : List String) : h'.walk? count l names = h.walk? count l names := by
  induction count generalizing l names with
  | zero =>
    unfold walk?
    rw [advance_congr directories links]
  | succ count ih =>
    unfold walk?
    rw [advance_congr directories links]
    simp only [ih]

/-! ## A file in its place -/

/-- The host with a file at a location, in the place of what was there. -/
def store (h : Host) (location : Location) (text : String) : Host :=
  { h with nodes := (location, .file text) :: h.nodes }

/-- At a location there is a file, or nothing. -/
def IsFree (h : Host) (location : Location) : Prop :=
  ∀ node, h.node? location = some node → ∃ content, node = .file content

variable {location : Location} {text path : String}

theorem IsFree.ne {node : Node} (free : h.IsFree location)
    (other : ∀ content, node ≠ .file content) :
    h.node? location ≠ some node := by
  intro there
  obtain ⟨content, file⟩ := free node there
  exact other content file

theorem node?_store_self : (h.store location text).node? location = some (.file text) := by
  rw [node?, store, List.lookup_cons, beq_self_eq_true]

theorem node?_store_of_ne {other : Location} (ne : other ≠ location) :
    (h.store location text).node? other = h.node? other := by
  rw [node?, store, List.lookup_cons, beq_false_of_ne ne]
  rfl

theorem isDirectory_store (free : h.IsFree location) (l : Location) :
    (h.store location text).isDirectory l = h.isDirectory l := by
  unfold isDirectory
  by_cases same : l = location
  · subst same
    rw [node?_store_self]
    split
    · cases ‹_›
    · split
      · rename_i directory
        exact absurd directory (free.ne nofun)
      · rfl
  · rw [node?_store_of_ne same]

theorem link_store_iff (free : h.IsFree location) (l : Location) (path : String) :
    (h.store location text).node? l = some (.link path) ↔ h.node? l = some (.link path) := by
  by_cases same : l = location
  · subst same
    rw [node?_store_self]
    exact iff_of_false nofun (free.ne nofun)
  · rw [node?_store_of_ne same]

theorem locate?_store (free : h.IsFree location) (path : String) :
    (h.store location text).locate? path = h.locate? path := by
  unfold locate?
  rw [walk?_congr (isDirectory_store free) (link_store_iff free)]
  rfl

/-- The path that led to the place reads the text. -/
theorem read?_store (leads : h.locate? path = some location) (free : h.IsFree location) :
    (h.store location text).read? path = some text := by
  unfold read?
  rw [locate?_store free, leads]
  simp only [Option.bind_eq_bind, Option.bind_some, node?_store_self]

/-! ## Writing -/

theorem received_store (leads : h.locate? path = some location) (free : h.IsFree location) :
    Received h text (h.store location text) (some path) :=
  .file leads (fun _ => free.ne nofun) (read?_store leads free)
    (fun _ ne => node?_store_of_ne ne) rfl

theorem received_of_write {after : Host} (creatable : h.canCreate path = true)
    (written : h.write path text = .ok after) : Received h text after (some path) := by
  unfold canCreate at creatable
  unfold write at written
  cases leads : h.locate? path with
  | none => simp [leads] at creatable
  | some location =>
    simp only [leads] at creatable written
    cases there : h.node? location with
    | none =>
      simp only [there] at written
      cases written
      exact received_store leads fun node found => by cases there.symm.trans found
    | some node =>
      cases node with
      -- neither can be written, so neither was created
      | directory | link => simp [there] at creatable
      | file content =>
        simp only [there] at written
        cases written
        exact received_store leads fun node found =>
          ⟨content, Option.some.inj (found.symm.trans there)⟩
      | device d =>
        simp only [there] at written
        exact .device leads there written

theorem received_of_deliver {after : Host} {output : Output}
    (creatable : ∀ path, output.path = some path → h.canCreate path = true)
    (delivered : h.deliver output = .ok after) : Received h output.text after output.path := by
  obtain ⟨path, text⟩ := output
  cases path with
  | none =>
    cases delivered
    exact .printed rfl
  | some path => exact received_of_write (creatable path rfl) delivered

end RayTracer.Command.Host
