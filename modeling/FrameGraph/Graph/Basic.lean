import FrameGraph.Pass.Basic
import FrameGraph.Pass.Objects
import FrameGraph.Plan.Images

/-! # Graphs

A graph is a plan brought onto a device: its images, and for every pass a node with the objects
of the pass. It owns both.
-/

namespace FrameGraph

set_option autoImplicit false

structure Node where
  name : String
  objects : PassObjects
  outputs : List Name
  inputs : List Use
  hook : Option Hook
  deriving DecidableEq

structure Graph where
  nodes : List Node
  images : ImageMap
  output : Name
  /-- The state in which the nodes leave the output. -/
  outputState : ImageState
  deriving DecidableEq

namespace Node

/-- The node of a pass. Placeholders have no place in it. -/
def ofPass (p : Pass) (objects : PassObjects) : Node where
  name := p.name
  objects := objects
  outputs := p.liveColors.map fun t => t.name
  inputs := p.liveInputs
  hook := p.hook

/-- The inputs that cannot be sampled as the node finds them. -/
def pendingInputs (n : Node) : List Use := n.inputs.filter fun u => u.initial ≠ .shaderRead

def inputText (u : Use) : String :=
  Record.record "NodeInput" [("name", u.name.quoted), ("initial_state", u.initial.text)]

def text (n : Node) : String :=
  Record.record "GraphNode"
    [("name", Quoted.encode n.name), ("pass", n.objects.text),
      ("color_attachments", Record.list (n.outputs.map Name.quoted)),
      ("inputs", Record.list (n.inputs.map inputText)),
      ("has_on_render", Record.boolean n.hook.isSome)]

end Node

namespace Graph

def indexOf? (g : Graph) (name : String) : Option Nat := g.nodes.findIdx? fun n => n.name = name

end Graph

/-! ## The end of a graph -/

namespace Node

def destroy (n : Node) : HostM Node := do
  return { n with objects := ← n.objects.destroy }

end Node

namespace Graph

/-- Destroys the objects of all nodes. The images stay, and a second time there is nothing left
to do. -/
def destroy (g : Graph) : HostM Graph := do
  return { g with nodes := ← g.nodes.mapM Node.destroy }

/-- Destroys all that the graph owns, the images last. -/
def drop (g : Graph) : HostM Unit := do
  let _ ← g.destroy
  g.images.drop

end Graph

end FrameGraph
