import FrameGraph.Device.Release
import FrameGraph.Graph.Recording
import FrameGraph.Plan.Build
import FrameGraph.Session.Step

/-! # Running a session -/

namespace FrameGraph

set_option autoImplicit false

structure Session where
  environment : Environment
  cache : LayoutCache := {}
  shaders : NameMap Shader := .empty
  images : NameMap Image := .empty
  passes : NameMap PassObjects := .empty
  graphs : NameMap Graph := .empty

abbrev SessionM := StateT Session HostM

namespace Session

def onHost {α : Type} (work : HostM α) : SessionM α := liftM work

/-! ## Keeping and dropping

What takes the place of something older is made before the older one goes.
-/

def keepShader (id : Name) (shader : Shader) : SessionM Unit := do
  let s ← get
  set { s with shaders := s.shaders.insert id shader }
  (s.shaders.get? id).forM fun old => onHost old.release

def keepImage (id : Name) (image : Image) : SessionM Unit := do
  let s ← get
  set { s with images := s.images.insert id image }
  (s.images.get? id).forM fun old => onHost old.drop

def keepGraph (id : Name) (graph : Graph) : SessionM Unit := do
  let s ← get
  set { s with graphs := s.graphs.insert id graph }
  (s.graphs.get? id).forM fun old => onHost old.drop

/-- The objects of a single pass are destroyed only on request. -/
def keepPass (id : Name) (objects : PassObjects) : SessionM Unit :=
  modify fun s => { s with passes := s.passes.insert id objects }

def dropShader (id : Name) : SessionM Reply := do
  let s ← get
  set { s with shaders := s.shaders.erase id }
  (s.shaders.get? id).forM fun old => onHost old.release
  return .dropped (s.shaders.contains id)

def dropImage (id : Name) : SessionM Reply := do
  let s ← get
  set { s with images := s.images.erase id }
  (s.images.get? id).forM fun old => onHost old.drop
  return .dropped (s.images.contains id)

def dropGraph (id : Name) : SessionM Reply := do
  let s ← get
  set { s with graphs := s.graphs.erase id }
  (s.graphs.get? id).forM fun old => onHost old.drop
  return .dropped (s.graphs.contains id)

/-! ## Using what is kept -/

def withImage (id : Name) (use : Image → SessionM Reply) : SessionM Reply := do
  match (← get).images.get? id with
  | some image => use image
  | none => return .missing id

def withPass (id : Name) (use : PassObjects → SessionM Reply) : SessionM Reply := do
  match (← get).passes.get? id with
  | some objects => use objects
  | none => return .missing id

def withGraph (id : Name) (use : Graph → SessionM Reply) : SessionM Reply := do
  match (← get).graphs.get? id with
  | some graph => use graph
  | none => return .missing id

/-! ## Passes -/

/-- The shader of a choice, or the name under which none is kept. -/
def choose (s : Session) : ShaderChoice → Except Name Shader
  | .loose attributes => .ok (.loose attributes)
  | .kept id =>
    match s.shaders.get? id with
    | some shader => .ok shader
    | none => .error id

def declaration (s : Session) : Declaration ShaderChoice → Except Name (Declaration Shader)
  | .read name => .ok (.read name)
  | .color name policy => .ok (.color name policy)
  | .depth name policy => .ok (.depth name policy)
  | .pipeline choice bindings => return .pipeline (← s.choose choice) bindings
  | .hook tag => .ok (.hook tag)

def declarations (s : Session) (p : PassSketch) :
    Except Name (String × List (Declaration Shader)) :=
  return (p.name, ← p.steps.mapM s.declaration)

/-- Declares passes, which own their shaders from then on. -/
def declareAll (sketches : List (String × List (Declaration Shader))) : HostM (List Pass) :=
  sketches.mapM fun p => Pass.ofDeclarationsOwned p.1 p.2

/-- Declares the passes of a step, if all shaders are kept. -/
def withPasses (sketches : List PassSketch) (use : List Pass → SessionM Reply) :
    SessionM Reply := do
  match sketches.mapM (← get).declarations with
  | .error id => return .missing id
  | .ok ready => use (← declareAll ready)

/-- Compiles one pass by itself. With passes before it, it finds the images as they leave
them. -/
def compilePass (id : Name) (resolved : Bool) (earlier : List Pass) (p : Pass) (images : ImageMap) :
    SessionM Reply := do
  let ready := if resolved then p.resolve (Pass.leavesAll {} earlier) else p
  if resolved then
    onHost (Host.reportAll ((Pass.resolveAll {} (earlier ++ [p])).flatMap Pass.notices))
  let result ← onHost (ready.compile images).run
  onHost ((earlier ++ [p]).forM Pass.drop)
  match result with
  | .ok objects => keepPass id objects
  | .error _ => pure ()
  return .objects result

/-! ## Graphs -/

end Session

namespace PlanEdit

def apply (e : PlanEdit) (p : Plan) : Plan where
  passes := p.passes
  output := e.output.getD p.output
  outputState := e.outputState.getD p.outputState
  usages := e.set.foldl (fun m u => m.insert u.1 u.2) (e.remove.foldl NameMap.erase p.usages)

end PlanEdit

namespace Session

def buildGraph (id : Name) (passes : List Pass) (output : Name) (edit : Option PlanEdit) :
    SessionM Reply := do
  let planned ← onHost (Draft.planWithReport ⟨passes, output⟩)
  let plan := match edit with
    | some e => e.apply planned
    | none => planned
  let result ← onHost (plan.build (← get).environment)
  match result with
  | .ok graph => keepGraph id graph
  | .error _ => pure ()
  return .graph result

def replaceGraph (id : Name) (graph : Graph) : SessionM Unit :=
  modify fun s => { s with graphs := s.graphs.insert id graph }

/-! ## Steps -/

def step : Step → SessionM Reply
  | .createShader id vertex fragment => do
    let s ← get
    let (result, cache) ← onHost (Shader.create s.cache vertex fragment)
    set { s with cache := cache }
    match result with
    | .ok shader => keepShader id shader
    | .error _ => pure ()
    return .shader result
  | .adoptShader id vertexModule fragmentModule attributes setLayout => do
    let shader ← onHost (Shader.adopt vertexModule fragmentModule attributes setLayout)
    keepShader id shader
    return .shader (.ok shader)
  | .dropShader id => dropShader id
  | .provideLayout stages => do
    let s ← get
    match ← onHost (s.cache.layoutFor stages).run with
    | .ok (layout, cache) =>
      set { s with cache := cache }
      return .layout (.ok layout) cache.size cache.isEmpty
    | .error e => return .layout (.error e) s.cache.size s.cache.isEmpty
  | .findMemoryType typeBits required => do
    return .memoryType ((← get).environment.memory.search typeBits required)
  | .setSurface surface => do
    onHost (Host.report (.surfaceChanged surface.extent surface.colorFormat))
    modify fun s => { s with environment := { s.environment with surface := surface } }
    return .surface surface
  | .createImage id request => do
    let result ← onHost (Image.create (← get).environment request).run
    match result with
    | .ok image => keepImage id image
    | .error _ => pure ()
    return .image result
  | .adoptImage id image => do
    keepImage id image
    return .image (.ok image)
  | .dropImage id => dropImage id
  | .imageText id => withImage id fun image => return .record image.text
  | .transition id before after buffer => withImage id fun image => do
    onHost (Host.record buffer (image.transition before after))
    return .done
  | .presentImage state output target buffer =>
    withImage output fun source => withImage target fun surfaceImage => do
      onHost (Host.recordAll buffer (source.presentCommands state surfaceImage))
      return .text state.presentText
  | .compilePass id pass earlier images =>
    withPasses ((earlier.getD []) ++ [pass]) fun passes =>
      match passes.getLast? with
      | some p => compilePass id earlier.isSome passes.dropLast p images
      | none => return .done
  | .destroyPass id => withPass id fun objects => do
    let cleared ← onHost objects.destroy
    keepPass id cleared
    return .objects (.ok cleared)
  | .passText id => withPass id fun objects => return .record objects.text
  | .buildGraph id passes output edit =>
    withPasses passes fun ready => buildGraph id ready output edit
  | .inspectGraph id nodes images => withGraph id fun graph =>
    return .inspection graph (nodes.map graph.indexOf?) (images.map graph.images.get?)
  | .nodeTexts id => withGraph id fun graph => return .texts (graph.nodes.map Node.text)
  | .execute id buffer => withGraph id fun graph => do
    replaceGraph id (← onHost (graph.execute buffer))
    return .done
  | .present id buffer target => withGraph id fun graph => do
    onHost (graph.present buffer target)
    return .done
  | .destroyGraph id => withGraph id fun graph => do
    let destroyed ← onHost graph.destroy
    replaceGraph id destroyed
    return .graph (.ok destroyed)
  | .dropGraph id => dropGraph id

def finish : SessionM Unit := do
  let s ← get
  onHost (s.graphs.values.forM Graph.drop)
  onHost (s.images.values.forM Image.drop)
  onHost (s.shaders.values.forM Shader.release)
  onHost s.cache.drop

/-! ## Runs -/

/-- The host with its record wiped, so that a step shows only its own calls and notices. -/
def wipe (h : Host) : Host := { h with device := { h.device with calls := [] }, notices := [] }

def visibleCalls (h : Host) : List Call := Release.arrange h.device.calls

/-- Runs the steps and drops what is left. The reports of the steps come with the calls of the
end, unless a step ended the run. -/
def runFrom (h : Host) (s : Session) : List Step → Option (List Report × List Call)
  | [] =>
    let (_, h) := (finish.run s).run (wipe h)
    some ([], visibleCalls h)
  | t :: rest =>
    let ((reply, s), h) := ((step t).run s).run (wipe h)
    if reply.isFatal then none
    else (runFrom h s rest).map fun r => (⟨reply, visibleCalls h, h.notices⟩ :: r.1, r.2)

def run (script : Script) (environment : Environment) (steps : List Step) :
    Option (List Report × List Call) :=
  runFrom { device := { script := script } } { environment := environment } steps

end Session

end FrameGraph
