import FrameGraph.Pass.Basic
import FrameGraph.Plan.Roles
import FrameGraph.Plan.States

/-! # Drafts and plans

A draft lists the passes of a frame and names the image that is shown. Its plan is all that
follows from it without a device: the states in which passes find their images, the state in
which the output is left, and what each image is used for.
-/

namespace FrameGraph

set_option autoImplicit false

structure Draft where
  passes : List Pass
  output : Name
  deriving DecidableEq

structure Plan where
  passes : List Pass
  output : Name
  outputState : ImageState
  usages : UsageMap
  deriving DecidableEq

namespace Draft

def outputState (d : Draft) : ImageState := (Pass.leavesAll {} d.passes).stateOf d.output

def plan (d : Draft) : Plan where
  passes := Pass.resolveAll {} d.passes
  output := d.output
  outputState := d.outputState
  usages := .ofPasses d.passes d.output

def notices (d : Draft) : List Notice :=
  d.plan.passes.flatMap Pass.notices ++
    (if d.outputState = .unknown then [.outputNeverWritten d.output] else [])

def text (d : Draft) : String :=
  Record.record "RenderGraphBuilder"
    [("passes", Record.list (d.passes.map Pass.text)), ("output_name", d.output.quoted)]

end Draft

namespace Plan

def indexOf? (p : Plan) (name : String) : Option Nat := p.passes.findIdx? fun q => q.name = name

def text (p : Plan) : String :=
  Record.record "GraphPlan"
    [("passes", Record.list (p.passes.map Pass.text)), ("output_name", p.output.quoted),
      ("output_state", p.outputState.text),
      ("usages", Record.table (p.usages.entries.map fun e => (e.1.quoted, e.2.text)))]

end Plan

end FrameGraph
