import FrameGraph.Proofs.Layout.Frame

/-! # Blocks of a frame

A node records one block of commands: barriers, then its render pass with the pipeline, and in it
what its hook records. Frame after frame the blocks stay the same, up to what the hooks record.
-/

namespace FrameGraph

set_option autoImplicit false

open Command Host

/-! ## Render passes in a list of commands -/

namespace Command

def barrier? : Command → Option BarrierInfo
  | .barrier info => some info
  | _ => none

end Command

/-! ## Blocks -/

/-- How a render pass is begun, and the pipeline that is bound in it. -/
structure Rendering where
  start : BeginInfo
  pipeline : Option (Handle .pipeline)

/-- What a node records in the first frame. -/
structure Block where
  barriers : List BarrierInfo
  rendering : Option Rendering
  shown : Option HookInfo

/-- What a hook is shown after some more runs. -/
def HookInfo.after (info : HookInfo) (runs : Nat) : HookInfo :=
  { info with runs := info.runs + runs }

namespace Hook

def shown (k : Hook) (o : PassObjects) : HookInfo where
  tag := k.tag
  runs := k.ran.runs
  renderPass := o.renderPass
  pipeline := o.pipeline
  area := o.area

end Hook

namespace Rendering

def opening (r : Rendering) : List Command :=
  [.beginRenderPass r.start, .setViewports 0 [r.start.area.viewport],
      .setScissors 0 [r.start.area]] ++
    r.pipeline.toList.map (.bindPipeline graphicsBindPoint)

end Rendering

namespace Block

/-- The hook runs once, and records what the application wants when it is shown this. -/
def hooked (records : HookInfo → List Command) (frames : Nat) (b : Block) : List Command :=
  b.shown.toList.flatMap fun info => .hook (info.after frames) :: records (info.after frames)

/-- The commands of the block after some earlier frames. -/
def commands (records : HookInfo → List Command) (frames : Nat) (b : Block) : List Command :=
  b.barriers.map .barrier ++ b.rendering.toList.flatMap Rendering.opening ++
    b.hooked records frames ++ b.rendering.toList.map fun _ => .endRenderPass

variable {records : HookInfo → List Command}

end Block

/-! ## Nodes -/

namespace PassObjects

def rendering (o : PassObjects) : Option Rendering :=
  o.renderPass.map fun renderPass =>
    { start :=
        { renderPass := renderPass
          framebuffer := o.framebuffer
          area := o.area
          clearValues := o.clearValues }
      pipeline := o.pipeline }

theorem opening_eq (o : PassObjects) :
    o.opening = o.rendering.toList.flatMap Rendering.opening := by
  rw [opening, rendering]
  cases o.renderPass with
  | none => rfl
  | some renderPass => simp [Rendering.opening]

theorem closing_eq (o : PassObjects) :
    o.closing = o.rendering.toList.map fun _ => .endRenderPass := by
  rw [closing, rendering]
  cases o.renderPass with
  | none => rfl
  | some renderPass => rfl

end PassObjects

namespace Node

variable {images : ImageMap} {n : Node} {b : Block} {frames : Nat}

/-- The commands of the node if the application records something else in its hooks. -/
def commandsWith (records : HookInfo → List Command) (images : ImageMap) (n : Node) :
    List Command :=
  n.barriers images ++ n.objects.opening ++
    (n.hook.toList.flatMap fun k => .hook (k.shown n.objects) :: records (k.shown n.objects)) ++
    n.objects.closing

def block (images : ImageMap) (n : Node) : Block where
  barriers := (n.barriers images).filterMap Command.barrier?
  rendering := n.objects.rendering
  shown := n.hook.map fun k => k.shown n.objects

/-- The node records the block once more, after some frames. -/
structure Repeats (images : ImageMap) (frames : Nat) (b : Block) (n : Node) : Prop where
  barriers : n.barriers images = b.barriers.map .barrier
  rendering : n.objects.rendering = b.rendering
  shown : n.hook.map (fun k => k.shown n.objects) = b.shown.map fun info => info.after frames

theorem Repeats.ran (h : Repeats images frames b n) : Repeats images (frames + 1) b n.ran where
  barriers := h.barriers
  rendering := h.rendering
  shown := by
    have hShown := congrArg (Option.map fun info => info.after 1) h.shown
    rw [Option.map_map, Option.map_map] at hShown
    rw [Node.ran, Option.map_map]
    exact hShown

theorem Repeats.commandsWith (h : Repeats images frames b n) (records : HookInfo → List Command) :
    n.commandsWith records images = b.commands records frames := by
  have hHooked : (n.hook.toList.flatMap fun k =>
      .hook (k.shown n.objects) :: records (k.shown n.objects)) = b.hooked records frames := by
    have hFlat := congrArg (fun infos => infos.toList.flatMap fun info : HookInfo =>
      .hook info :: records info) h.shown
    simpa [Block.hooked, Option.toList_map, List.flatMap_map] using hFlat
  rw [Node.commandsWith, h.barriers, n.objects.opening_eq, n.objects.closing_eq, h.rendering,
    hHooked, Block.commands]

end Node

/-! ## Graphs -/

namespace Graph

variable {g : Graph} {blocks : List Block}

def commandsWith (records : HookInfo → List Command) (g : Graph) : List Command :=
  g.nodes.flatMap (Node.commandsWith records g.images)

/-- The nodes record the blocks once more, after some frames. -/
def Repeats (frames : Nat) (blocks : List Block) (g : Graph) : Prop :=
  List.Forall₂ (Node.Repeats g.images frames) blocks g.nodes

theorem Repeats.ran {frames : Nat} (h : g.Repeats frames blocks) :
    g.ran.Repeats (frames + 1) blocks :=
  List.forall₂_map_right_iff.mpr (h.imp fun _ _ hNode => hNode.ran)

theorem Repeats.runFrames {frames : Nat} (h : g.Repeats frames blocks) (past : List Frame)
    (h₁ : Host) : ((g.runFrames past).run h₁).1.Repeats (frames + past.length) blocks := by
  induction past generalizing g frames h₁ with
  | nil => exact h
  | cons f past ih =>
    have hNext := ih h.ran ((g.runFrame f).run h₁).2
    rw [← g.runFrame_result f h₁, Nat.add_assoc, Nat.add_comm 1] at hNext
    exact hNext

theorem Repeats.commandsWith {frames : Nat} (h : g.Repeats frames blocks)
    (records : HookInfo → List Command) :
    g.commandsWith records = blocks.flatMap (Block.commands records frames) := by
  rw [Graph.commandsWith, List.flatMap_def, List.flatMap_def]
  exact congrArg List.flatten
    (Traversal.map_eq_of_forall₂ (fun _ _ hNode => hNode.commandsWith records) h)

end Graph

end FrameGraph
