/-
Where log lines go.

Lines go to a configured file, or to a default one while none is configured, and
nowhere while logging is off.  A file is opened when the first line is to go there
after a line has gone elsewhere; if that fails, lines for it are dropped until the
route changes.
-/
import AnalyzerBridge.Host.Disk
import AnalyzerBridge.Host.Environment

namespace AnalyzerBridge

open Host (Disk Environment)

/-- The way of log lines. -/
structure LogRoute where
  /-- Lines are written at all. -/
  enabled : Bool := true
  /-- The configured file, empty for none. -/
  path : Bytes := []
  /-- The file for lines while none is configured. -/
  fallback : Bytes := []
  /-- The file that was opened last, or tried. -/
  opened : Bytes := []
  /-- Whether it could be opened. -/
  isOpen : Bool := false
  deriving DecidableEq, Repr

namespace LogRoute

/-- The file that a line is meant for. -/
def target (route : LogRoute) : Bytes := if route.path.isEmpty then route.fallback else route.path

/-- The route with its target opened, where `canOpen` tells which files can be. -/
def reopen (canOpen : Bytes → Bool) (route : LogRoute) : LogRoute :=
  if route.target = route.opened then route
  else { route with opened := route.target, isOpen := canOpen route.target }

/-- Takes a line.  The result is the route behind it, and the file and text to put at its
end, if the line is written. -/
def write (canOpen : Bytes → Bool) (route : LogRoute) (line : Bytes) :
    LogRoute × Option (Bytes × Bytes) :=
  if route.enabled then
    let route := route.reopen canOpen
    (route, if route.isOpen then some (route.opened, line ++ [10]) else none)
  else (route, none)

/-- Switches lines on or off and to another file, where anything is said of that. -/
def configure (route : LogRoute) (enabled : Option Bool) (path : Option Bytes) : LogRoute :=
  { route with enabled := enabled.getD route.enabled, path := path.getD route.path }

/-! ### The default file -/

/-- The directory for temporary files: what the first variable that is set says, if it is a
directory; otherwise any of three that says anything; otherwise `/tmp`. -/
def temporaryDirectory (env : Environment) (disk : Disk) : Bytes :=
  let named := ([ascii "TMPDIR", ascii "TMP", ascii "TEMP", ascii "TEMPDIR"].findSome? env.get?).getD (ascii "/tmp")
  let usable :=
    if disk.isDirectory named then some named
    else [ascii "TMPDIR", ascii "TEMP", ascii "TMP"].findSome? env.nonempty?
  usable.getD (ascii "/tmp")

/-- The file for lines while none is configured. -/
def defaultPath (env : Environment) (disk : Disk) : Bytes :=
  Path.append (temporaryDirectory env disk) (ascii "ramcp.log")

/-- The route before anything is configured. -/
def initial (env : Environment) (disk : Disk) : LogRoute := { fallback := defaultPath env disk }

end LogRoute

end AnalyzerBridge
