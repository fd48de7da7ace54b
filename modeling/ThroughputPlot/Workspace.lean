import ThroughputPlot.Drawing
import ThroughputPlot.Report
import ThroughputPlot.Settings
import ThroughputPlot.Text.Utf8

/-!
# Workspaces

A run reads tables and leaves images in a workspace.  What a workspace can do is given
by functions in a monad, so that the same run can work on files and on a model of them.
A backend is the part of it that a run sees: inputs and outputs by the names that the
settings give them.
-/

namespace ThroughputPlot

structure Workspace (m : Type → Type) where
  readFile : String → m (Except IoFault Bytes)
  /-- Makes a directory and those above it, unless they are there. -/
  makeDirectories : String → m (Except IoFault Unit)
  draw : Drawing → String → m (Report Unit)

/-- What a run works with.  Only the backend knows what the path of an image is made of. -/
structure Backend (m : Type → Type) (π : Type := String) where
  read : String → m (Except PlotError Bytes)
  /-- The place of an output, made ready for it. -/
  outputPath : String → m (Except PlotError π)
  render : Chart → π → m (Report Unit)

/-- The error of a fault met while an input is read. -/
def inputError (path : String) (fault : IoFault) : PlotError :=
  if fault = .notFound then .inputNotFound path else .io fault

namespace Workspace

variable {m : Type → Type} [Monad m]

def readInput (workspace : Workspace m) (inputDir input : String) :
    m (Except PlotError Bytes) := do
  let path := Path.join inputDir input
  return match ← workspace.readFile path with
    | .ok content => .ok content
    | .error fault => .error (inputError path fault)

def prepareOutput (workspace : Workspace m) (outputDir output : String) :
    m (Except PlotError String) := do
  let path := Path.join outputDir output
  match Path.parent? path with
  | none => return .ok path
  | some directory =>
    if directory.isEmpty then return .ok path
    else
      return match ← workspace.makeDirectories directory with
        | .ok _ => .ok path
        | .error fault => .error (.io fault)

def backend (workspace : Workspace m) (settings : Settings) : Backend m where
  read := workspace.readInput settings.inputDir
  outputPath := workspace.prepareOutput settings.outputDir
  render chart path := workspace.draw ⟨chart, settings.width, settings.height⟩ path

end Workspace

end ThroughputPlot
