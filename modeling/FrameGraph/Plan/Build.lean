import FrameGraph.Graph.Basic
import FrameGraph.Plan.Basic

/-! # Building a graph from a plan

First the images, then the objects of every pass in order. When anything fails, all that was
created is destroyed again: the objects of earlier passes, then the images. The passes of the
plan are used up either way, and let go of their shaders last.
-/

namespace FrameGraph

set_option autoImplicit false

namespace Plan

/-- Reports the failure of a pass and destroys the objects of the nodes before it. -/
def giveUp (p : Pass) (nodes : List Node) (error : BuildError) : HostM Unit := do
  Host.report (.passFailed p.name error)
  nodes.forM fun n => Host.destroyAll n.objects.objects

/-- Creates the objects of the remaining passes, in addition to the nodes that are there. -/
def compileAll (images : ImageMap) : List Pass → List Node → HostE BuildError (List Node)
  | [], nodes => return nodes
  | p :: rest, nodes => do
    let objects ← Host.onFailure (giveUp p nodes) (p.compile images)
    compileAll images rest (nodes ++ [.ofPass p objects])

def assemble (env : Environment) (p : Plan) : HostE BuildError Graph := do
  let images ← p.usages.allocate env p.output
  let nodes ← Host.cleaningUp images.drop (compileAll images p.passes [])
  Host.always (Host.report (.graphBuilt nodes.length images.size p.output))
  return ⟨nodes, images, p.output, p.outputState⟩

def drop (p : Plan) : HostM Unit := p.passes.forM Pass.drop

/-- Builds the graph and uses up the plan. -/
def build (env : Environment) (p : Plan) : HostM (Except BuildError Graph) := do
  let result ← (p.assemble env).run
  p.drop
  return result

end Plan

namespace Draft

/-- Plans the draft and reports on it. The plan takes over the shaders of the passes. -/
def planWithReport (d : Draft) : HostM Plan := do
  Host.reportAll d.notices
  return d.plan

def build (env : Environment) (d : Draft) : HostM (Except BuildError Graph) := do
  let plan ← d.planWithReport
  plan.build env

def drop (d : Draft) : HostM Unit := d.passes.forM Pass.drop

end Draft

end FrameGraph
