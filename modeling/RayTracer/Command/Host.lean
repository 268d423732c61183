import RayTracer.Failure

/-!
# The host of a run

What a run of the command meets: the nodes of a file system (directories, files, devices and links
to other paths), the working directory, and what has been printed to the standard output.

A path is walked name by name, from the root if it begins with a separator, else from the working
directory. Every name on the way has to be a directory or a link to one. The last one may be
missing; then a file can be created there. An empty name or `.` stays and `..` goes up, but each
only where there is a directory, so a path that ends in a separator cannot lead to a file.
-/

namespace RayTracer.Command

/-- The names from the root down to a place. -/
abbrev Location := List String

inductive Device where
  /-- Is empty and keeps nothing. -/
  | null
  /-- Comes to no end when read and keeps nothing. -/
  | endless
  /-- Has no room for a single byte. -/
  | full
  /-- The standard input, with nothing to read. -/
  | input
  /-- The standard output. -/
  | output
  /-- The standard error, which is not recorded. -/
  | errors
  /-- Tells about the host and takes nothing. It is never a configuration, so its text is left
  out. -/
  | report
deriving Repr, DecidableEq

/-- All that can be read from a device, if reading comes to an end. -/
def Device.content? : Device → Option String
  | .null | .input | .report => some ""
  | .endless | .full | .output | .errors => none

/-- Whether a device can be opened for writing. -/
def Device.isWritable (d : Device) : Bool := d ≠ .report

inductive Node where
  /-- In a closed directory no file can be created. -/
  | directory (isOpen : Bool)
  | file (content : String)
  | device (d : Device)
  | link (path : String)
deriving Repr, DecidableEq

structure Host where
  /-- Of two nodes of one location the first counts. -/
  nodes : List (Location × Node)
  workingDirectory : Location
  printed : String := ""
deriving Repr, DecidableEq

/-- Splits at each separator. -/
def components : List Char → List (List Char)
  | [] => [[]]
  | '/' :: rest => [] :: components rest
  | c :: rest =>
    match components rest with
    | first :: others => (c :: first) :: others
    | [] => [[c]]

/-- The names of a path. -/
def pathNames (path : String) : List String := (components path.toList).map String.ofList

/-- How far a walk comes without following a link. -/
inductive Progress where
  | arrived (location : Location)
  | blocked
  /-- At a link, with the names behind it. -/
  | redirected (path : String) (directory : Location) (rest : List String)
deriving Repr, DecidableEq

namespace Host

/-- The longest name, in bytes. -/
def maxNameSize : Nat := 255

/-- The longest path, in bytes. -/
def maxPathSize : Nat := 4095

/-- The most links that are followed on one path. -/
def maxLinks : Nat := 40

def node? (h : Host) (location : Location) : Option Node := h.nodes.lookup location

def isDirectory (h : Host) (location : Location) : Bool :=
  match h.node? location with
  | some (.directory _) => true
  | _ => false

/-- Whether a file can be created in a directory. -/
def isOpen (h : Host) (location : Location) : Bool := h.node? location == some (.directory true)

/-- Walks along names up to the first link. -/
def advance (h : Host) (location : Location) : List String → Progress
  | [] => .arrived location
  | name :: rest =>
    if !h.isDirectory location then .blocked
    else if name = "" ∨ name = "." then h.advance location rest
    else if name = ".." then h.advance location.dropLast rest
    else if maxNameSize < name.utf8ByteSize then .blocked
    else
      match h.node? (location ++ [name]) with
      | some (.link path) => .redirected path location rest
      | _ => h.advance (location ++ [name]) rest

/-- Where the walk along a path begins. -/
def start (path : String) (current : Location) : Location :=
  if path.toList.head? = some '/' then [] else current

/-- Walks along names and follows at most a number of links. -/
def walk? (h : Host) (links : Nat) (location : Location) (names : List String) : Option Location :=
  match h.advance location names with
  | .arrived location => some location
  | .blocked => none
  | .redirected path directory rest =>
    match links with
    | 0 => none
    | links + 1 => h.walk? links (start path directory) (pathNames path ++ rest)

/-- Where a path leads. There is a node, or at least the directory for one. -/
def locate? (h : Host) (path : String) : Option Location :=
  if path = "" ∨ maxPathSize < path.utf8ByteSize then none
  else h.walk? maxLinks (start path h.workingDirectory) (pathNames path)

/-- The content of what a path leads to, if it can be read to its end. -/
def read? (h : Host) (path : String) : Option String := do
  match h.node? (← h.locate? path) with
  | some (.file content) => some content
  | some (.device d) => d.content?
  | _ => none

/-- Whether a path leads to something that can be written, or to where a file can be created. -/
def canCreate (h : Host) (path : String) : Bool :=
  match h.locate? path with
  | none => false
  | some location =>
    match h.node? location with
    | some (.file _) => true
    | some (.device d) => d.isWritable
    | some (.directory _) | some (.link _) => false
    | none => h.isOpen location.dropLast

/-- Prints to the standard output. -/
def print (h : Host) (text : String) : Host := { h with printed := h.printed ++ text }

/-- Writes a text to a device. -/
def writeDevice (h : Host) (text : String) : Device → Except WriteError Host
  | .full => if text = "" then .ok h else .error .noSpace
  | .output => .ok (h.print text)
  | .null | .endless | .input | .errors | .report => .ok h

/-- Writes a text where a path leads. A path that leads nowhere is passed over. -/
def write (h : Host) (path text : String) : Except WriteError Host :=
  match h.locate? path with
  | none => .ok h
  | some location =>
    match h.node? location with
    | some (.device d) => h.writeDevice text d
    | _ => .ok { h with nodes := (location, .file text) :: h.nodes }

end Host

end RayTracer.Command
