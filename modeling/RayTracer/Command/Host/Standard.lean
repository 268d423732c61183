import RayTracer.Command.Host

/-!
# The standard host

A working directory with nothing but the given files in it, amid the devices, the standard streams
and the process directory that every host of the kind offers.
-/

namespace RayTracer.Command.Host

/-- The directories at the root that are nowhere else described. -/
def plainDirectories : List String :=
  ["bin", "boot", "etc", "home", "lib", "media", "mnt", "opt", "root", "run", "sbin", "srv",
    "usr", "var"]

def devices : List (String × Node) := [
  ("null", .device .null), ("zero", .device .endless), ("full", .device .full),
  ("random", .device .endless), ("urandom", .device .endless),
  ("fd", .link "/proc/self/fd"), ("stdin", .link "/proc/self/fd/0"),
  ("stdout", .link "/proc/self/fd/1"), ("stderr", .link "/proc/self/fd/2"),
  ("shm", .directory true)]

/-- What every process is told about itself. -/
def processReports : List String :=
  ["cmdline", "comm", "environ", "limits", "maps", "mounts", "stat", "statm", "status"]

/-- What every process is told about its host. -/
def hostReports : List String :=
  ["cpuinfo", "filesystems", "loadavg", "meminfo", "mounts", "stat", "uptime", "version"]

/-- The texts about users and addresses. -/
def etcReports : List String := ["group", "hostname", "hosts", "passwd", "resolv.conf"]

/-- The directory that describes the process. -/
def processDirectory : Location := ["proc", "100"]

def standardWorkingDirectory : Location := ["tmp", "work"]

/-- Nodes of one directory. -/
def inDirectory (directory : Location) (nodes : List (String × Node)) : List (Location × Node) :=
  nodes.map fun (name, node) => (directory ++ [name], node)

def standardNodes : List (Location × Node) :=
  [([], .directory true), (["tmp"], .directory true), (["dev"], .directory false),
    (["sys"], .directory false), (["proc"], .directory false), (["proc", "self"], .link "100"),
    (processDirectory, .directory false), (processDirectory ++ ["fd"], .directory false),
    (standardWorkingDirectory, .directory true)] ++
  inDirectory [] (plainDirectories.map (·, .directory true)) ++
  inDirectory ["dev"] devices ++
  inDirectory ["etc"] (etcReports.map (·, .device .report)) ++
  inDirectory ["proc"] (hostReports.map (·, .device .report)) ++
  inDirectory processDirectory (processReports.map (·, .device .report)) ++
  inDirectory processDirectory [("cwd", .link "/tmp/work"), ("root", .link "/")] ++
  inDirectory (processDirectory ++ ["fd"])
    [("0", .device .input), ("1", .device .output), ("2", .device .errors)]

/-- The host whose working directory holds the given files. -/
def standard (files : List (String × String)) : Host where
  nodes :=
    inDirectory standardWorkingDirectory (files.map fun (name, text) => (name, .file text)) ++
    standardNodes
  workingDirectory := standardWorkingDirectory

end RayTracer.Command.Host
