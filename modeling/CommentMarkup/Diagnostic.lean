/-
# Diagnostics

A diagnostic says what is wrong with a document and where.  It begins without a location; the
compiler attaches one at the first document that sees it.  A location that is there is never
changed: every including document further up wraps the diagnostic instead, which records the
place of its include directive in the trace.

`Diagnostic.causes` lists what a diagnostic wraps, the outermost layer first.
-/
import CommentMarkup.Fault
import CommentMarkup.Path.Basic

namespace CommentMarkup

/-- What is wrong with a document. -/
inductive Problem where
  /-- A failure in words of its own, such as those of a fault. -/
  | general (text : Text)
  /-- A comment that is opened and never closed. -/
  | unterminatedComment (text : Text)
  /-- A directive that is recognised and refused. -/
  | unsupportedDirective (text : Text)
  /-- A reference to a variable that has no value. -/
  | undefinedVariable (name : Text)
  /-- An include that names no existing file. -/
  | includeNotFound (spec : Text)
  /-- An include of a document that is being compiled further up. -/
  | recursiveInclude (including ancestor : Text)
deriving DecidableEq, Repr

namespace Problem

/-- The wording of a problem. -/
def message : Problem → Text
  | .general text | .unterminatedComment text | .unsupportedDirective text => text
  | .undefinedVariable name =>
    "Undefined variable '".toList ++ name ++ "'. Use ".toList ++ name
      ++ "? for an optional variable".toList
  | .includeNotFound spec => "Failed to find the included file `".toList ++ spec ++ "`".toList
  | .recursiveInclude including ancestor =>
    "Recursive include detected. `".toList ++ including
      ++ "` is including parent file `".toList ++ ancestor ++ "`".toList

end Problem

/-- The place of a directive. -/
structure Site where
  /-- The document. -/
  file : Path
  /-- The line of the directive. -/
  line : Int
  /-- The column of the directive. -/
  column : Int
deriving DecidableEq, Repr

/-- What one layer of a diagnostic says. -/
structure Report where
  /-- What is wrong. -/
  problem : Problem
  /-- The document it is wrong in, once known. -/
  file : Option Path
  /-- The line, once known. -/
  line : Option Int
  /-- The column, once known. -/
  column : Option Int
  /-- The include directives it has passed through, the innermost first. -/
  trace : List Site
deriving DecidableEq, Repr

namespace Report

/-- Whether the report has a location. -/
def isLocated (r : Report) : Bool := r.line.isSome && r.column.isSome

/-- The one-line form of a report: its message, after its location once it has one. -/
def summary (r : Report) : Text :=
  match r.line, r.column with
  | some line, some column =>
    let file := r.file.getD []
    (if file = [] then "<string>".toList else file) ++ ":".toList ++ (toString line).toList
      ++ ":".toList ++ (toString column).toList ++ ": ".toList ++ r.problem.message
  | _, _ => r.problem.message

end Report

/-- A report together with what caused it. -/
inductive Diagnostic where
  /-- The first report of a problem, and the fault it came from if there is one. -/
  | root (report : Report) (origin : Option Fault)
  /-- A report that an including document has wrapped around another one. -/
  | wrapping (report : Report) (inner : Diagnostic)
deriving DecidableEq, Repr

/-- One layer below a diagnostic. -/
inductive Cause where
  /-- A wrapped report. -/
  | report (report : Report)
  /-- The fault at the bottom. -/
  | fault (fault : Fault)
deriving DecidableEq, Repr

namespace Diagnostic

/-- A problem that has no location yet. -/
def ofProblem (p : Problem) : Diagnostic :=
  .root { problem := p, file := none, line := none, column := none, trace := [] } none

/-- A fault as a problem that has no location yet. -/
def ofFault (f : Fault) : Diagnostic :=
  .root { problem := .general f.message, file := none, line := none, column := none,
          trace := [] } (some f)

/-- The outermost report of a diagnostic. -/
def report : Diagnostic → Report
  | .root report _ => report
  | .wrapping report _ => report

/-- A diagnostic whose outermost report is changed. -/
def mapReport (f : Report → Report) : Diagnostic → Diagnostic
  | .root report origin => .root (f report) origin
  | .wrapping report inner => .wrapping (f report) inner

/-- Whether a diagnostic has a location. -/
def isLocated (d : Diagnostic) : Bool := d.report.isLocated

/-- Gives a diagnostic a location, unless it has one. -/
def locate (site : Site) (d : Diagnostic) : Diagnostic :=
  if d.isLocated then d
  else d.mapReport fun r =>
    { r with file := some site.file, line := some site.line, column := some site.column }

/-- Wraps a diagnostic at an include directive, whose place is added to the trace. -/
def wrap (site : Site) (d : Diagnostic) : Diagnostic :=
  .wrapping { d.report with trace := d.report.trace ++ [site] } d

/-- What a diagnostic wraps, the outermost layer first. -/
def causes : Diagnostic → List Cause
  | .root _ origin => (origin.map Cause.fault).toList
  | .wrapping _ inner => .report inner.report :: inner.causes

end Diagnostic

/-- Why a compilation ends without a text. -/
inductive Failure where
  /-- Something is wrong with a document. -/
  | diagnosed (diagnostic : Diagnostic)
  /-- The source file itself cannot be accessed. -/
  | fault (fault : Fault)
  /-- The settings name an encoding that does not exist. -/
  | unknownEncoding (label : Text)
  /-- The codec of the settings fails without pointing at any bytes. -/
  | brokenCodec (message : Text)
  /-- Documents include one another beyond every bound. -/
  | tooDeep
deriving DecidableEq, Repr

namespace Failure

/-- The failure of a problem that has no location yet. -/
def ofProblem (p : Problem) : Failure := .diagnosed (.ofProblem p)

/-- How a failure leaves a directive: problems and faults get its place, located problems are
wrapped there, and the rest passes. -/
def leaving (site : Site) : Failure → Failure
  | .diagnosed d => .diagnosed (if d.isLocated then d.wrap site else d.locate site)
  | .fault f => .diagnosed ((Diagnostic.ofFault f).locate site)
  | .unknownEncoding label => .unknownEncoding label
  | .brokenCodec message => .brokenCodec message
  | .tooDeep => .tooDeep

/-- The one-line form of a failure. -/
def summary : Failure → Text
  | .diagnosed d => d.report.summary
  | .fault f => f.message
  | .unknownEncoding label => Encoding.unknownMessage label
  | .brokenCodec message => message
  | .tooDeep => "maximum recursion depth exceeded".toList

end Failure

end CommentMarkup
