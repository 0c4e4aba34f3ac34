import LabelLoop.CommandLine.Run

/-!
# What a command can reach

A command works on a file tree, of which it looks at few places only: its settings, its source, its
output and its log.  Whoever runs commands on real files needs to put no more than these places into
the tree, and to carry out no more than the changes of the tree.
-/

namespace LabelLoop.CommandLine

open Text

/-- The places passed on the way along names from a place, and the end of the way. -/
def trail (place : Place) : List Text → List Place
  | [] => [place]
  | name :: names => place :: trail (FileTree.next place name) names

/-- The places that matter for a path. -/
def trailOf (here : Place) (p : Path) : List Place :=
  trail (FileTree.startFrom here p) p.names

/-- The paths that a command with these settings and arguments looks at. -/
def pathsOf (settings : Settings) (arguments : List Text) : List Path :=
  let log := (settings.logFile.map Path.ofText).toList
  match read settings arguments with
  | .error _ => log
  | .ok a =>
    log ++ a.request.source :: a.request.output.toList ++ a.default.toOption.toList

/-- The entries that a run has added or changed, in the order in which they can be carried out. -/
def changes (before after : FileTree) : List (Place × Entry) :=
  after.entries.filter fun (place, e) => before.entries.lookup place ≠ some e

/-- The message of a crash. -/
def Crash.message : Crash → Text
  | .settings e => e.message
  | .logging e => e.message
  | .delivery f => f.message
  | .help e => e.message
  | .printing .output => "the output cannot be printed".toList
  | .printing .errors => "the errors cannot be printed".toList

end LabelLoop.CommandLine
