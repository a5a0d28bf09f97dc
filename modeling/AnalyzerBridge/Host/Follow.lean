/-
The lives of the programs that a machine knows.

What a program does is worked out by following it, step by step, on a machine of its own.  Its life
is followed from the start each time something more is done to it.  A later deed cannot change what
came before it, so what was seen of a life stays true.
-/
import AnalyzerBridge.Host.Shell.Evaluate
import AnalyzerBridge.Host.World

namespace AnalyzerBridge.Host

namespace Life

/-- How deep the programs that are followed may nest, and how many rounds their loops may have. -/
def bound : Nat := 30000

/-- How long a life is followed: two minutes.  What goes on longer is taken to go on for ever. -/
def span : Time := 120000000

/-- The life of a process to which something is done at given times. -/
def follow (launch : Launch) (deeds : List (Time × Deed)) : Life :=
  let inflow : Inflow :=
    { arrivals := deeds.filterMap fun
        | (time, .input text) => some (time, text)
        | _ => none
      ends := deeds.findSome? fun
        | (time, .inputEnds) => some time
        | _ => none }
  let machine : Machine :=
    { now := launch.start
      horizon := launch.start + span
      tree := launch.tree
      inflows := [(0, inflow)]
      abandoned := deeds.filterMap fun
        | (time, .abandon stream) => some (stream, time)
        | _ => none
      signals := deeds.filterMap fun
        | (time, .signal signal) => some (time, launch.pid, signal)
        | _ => none
      nextPid := launch.pid + 1
      process :=
        { pid := launch.pid
          directory := launch.directory
          descriptors := [(0, if launch.fed then .input 0 else .nothing), (1, .output 0), (2, .output 1)]
          environment := launch.environment } }
  let (status, m) := Run.live (do Run.pass Run.startCost; Shell.program bound launch.call) machine
  let inOrder (a b : Time × Nat × Bytes) : Bool := a.1 ≤ b.1
  { written := (m.written.reverse.filter (·.2.1 < 2)).mergeSort inOrder
    released := m.released
    edits := m.edits.reverse.mergeSort fun a b => a.1 ≤ b.1
    ended := status.map fun status => (m.now, status) }

end Life

/-- A world before anything has happened, on a machine with these programs. -/
def World.start (tree : FileTree) (current : Place) (environment : Environment) : World :=
  .initial Life.follow tree current environment

end AnalyzerBridge.Host
