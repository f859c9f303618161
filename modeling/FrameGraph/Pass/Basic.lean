import FrameGraph.Image.State
import FrameGraph.Name
import FrameGraph.Number.Shortest
import FrameGraph.Pass.LoadPolicy
import FrameGraph.Shader.Basic
import FrameGraph.Text

/-! # Passes

A pass declares which images it samples, which it draws into, and what it draws with. It is data
only: nothing here touches a device.
-/

namespace FrameGraph

set_option autoImplicit false

/-- An image in a role of a pass. The state in which the pass finds it is filled in when the
passes are put in order. -/
structure Use where
  name : Name
  initial : ImageState := .unknown
  deriving DecidableEq

structure Target (α : Type) extends Use where
  policy : LoadPolicy α
  deriving DecidableEq

/-- What a pass draws with. The bindings are listed in the order in which the shader declares
the inputs that they cover. -/
structure PipelineChoice where
  shader : Shader
  bindings : List VertexBinding
  deriving DecidableEq

/-- Code of the application that runs inside a pass. It counts its runs. -/
structure Hook where
  tag : String
  runs : Nat := 0
  deriving DecidableEq

structure Pass where
  name : String
  inputs : List Use := []
  colors : List (Target Color) := []
  depth : Option (Target DepthStencil) := none
  pipeline : Option PipelineChoice := none
  hook : Option Hook := none
  deriving DecidableEq

/-- One step in the declaration of a pass, with shaders given in the way of `σ`. -/
inductive Declaration (σ : Type) where
  | read (name : Name)
  | color (name : Name) (policy : LoadPolicy Color)
  | depth (name : Name) (policy : LoadPolicy DepthStencil)
  | pipeline (shader : σ) (bindings : List VertexBinding)
  | hook (tag : String)
  deriving DecidableEq

namespace Use

def isLive (u : Use) : Bool := !u.name.isPlaceholder

end Use

namespace Target

variable {α : Type}

def of (name : Name) (policy : LoadPolicy α) : Target α := { name := name, policy := policy }

def agree (same : α → α → Bool) (a b : Target α) : Bool :=
  a.toUse == b.toUse && a.policy.agree same b.policy

end Target

namespace Pass

/-- Reads and color targets are added to the earlier ones; a depth target, a pipeline or a hook
takes the place of the earlier one. -/
def declare (p : Pass) : Declaration Shader → Pass
  | .read name => { p with inputs := p.inputs ++ [{ name := name }] }
  | .color name policy => { p with colors := p.colors ++ [.of name policy] }
  | .depth name policy => { p with depth := some (.of name policy) }
  | .pipeline shader bindings => { p with pipeline := some ⟨shader, bindings⟩ }
  | .hook tag => { p with hook := some { tag := tag } }

def ofDeclarations (name : String) (steps : List (Declaration Shader)) : Pass :=
  steps.foldl declare { name := name }

/-! Placeholders are in the lists of a pass, but no image is behind them. -/

def liveInputs (p : Pass) : List Use := p.inputs.filter Use.isLive

def liveColors (p : Pass) : List (Target Color) := p.colors.filter fun t => t.isLive

def liveDepth (p : Pass) : Option (Target DepthStencil) := p.depth.filter fun t => t.isLive

/-- Every name of the pass with its role, in the order in which the pass gets to them: what it
samples comes first, since a pass never samples what it draws itself. -/
def uses (p : Pass) : List (Name × ImageState) :=
  p.inputs.map (fun u => (u.name, .shaderRead)) ++
    p.colors.map (fun t => (t.name, .colorTarget)) ++
    p.depth.toList.map (fun t => (t.name, .depthTarget))

/-- Floats in clear values are compared as numbers. -/
def sameColors (p q : Pass) : Bool :=
  p.colors.length == q.colors.length &&
    (p.colors.zip q.colors).all fun t => t.1.agree Color.numEq t.2

def sameDepth (p q : Pass) : Bool :=
  match p.depth, q.depth with
  | none, none => true
  | some a, some b => a.agree DepthStencil.numEq b
  | _, _ => false

def sameInputs (p q : Pass) : Bool := p.inputs == q.inputs

end Pass

/-! ## Texts -/

def Name.quoted (n : Name) : String := Quoted.encode n.text

def Color.text (c : Color) : String :=
  Record.record "ClearColor"
    [("r", Shortest.text c.red), ("g", Shortest.text c.green), ("b", Shortest.text c.blue),
      ("a", Shortest.text c.alpha)]

def DepthStencil.text (d : DepthStencil) : String :=
  Record.record "ClearDepthStencil"
    [("depth", Shortest.text d.depth), ("stencil", toString d.stencil)]

def LoadPolicy.text {α : Type} (value : α → String) : LoadPolicy α → String
  | .clear a => Record.applied "Clear" (value a)
  | .load => "Load"
  | .discard => "DontCare"

def Use.textWith (u : Use) (policy : String) : String :=
  Record.record "AttachmentRef"
    [("name", u.name.quoted), ("initial_state", u.initial.text), ("clear", policy)]

/-- What is sampled is always loaded. -/
def Use.text (u : Use) : String := u.textWith "Load"

def Target.text {α : Type} (value : α → String) (t : Target α) : String :=
  t.textWith (t.policy.text value)

def Pass.text (p : Pass) : String :=
  Record.record "RenderPassBuilder"
    [("name", Quoted.encode p.name),
      ("input_color_attachments", Record.list (p.inputs.map Use.text)),
      ("output_color_attachments", Record.list (p.colors.map (Target.text Color.text))),
      ("opt_depth_attachment", Record.optional (p.depth.map (Target.text DepthStencil.text))),
      ("has_pipeline", Record.boolean p.pipeline.isSome),
      ("has_on_render", Record.boolean p.hook.isSome)]

end FrameGraph
