import FrameGraph.Proofs.Graph.Pool
import FrameGraph.Proofs.Host.Notices
import FrameGraph.Proofs.Plan.Confinement

/-! # Work on graphs is heedless

Building graphs and working with them asks the device and counts the owners of shaders, but never
looks at what was reported.
-/

namespace FrameGraph

set_option autoImplicit false

open Host

theorem Shader.heedless_release (s : Shader) : Heedless s.release := by
  intro h h' hAlike
  let forgotten (h : Host) : Host := { h with owners := h.owners.erase s.key }
  have hRun : ∀ h, s.release.run h =
      (if (h.owners.erase s.key).contains s.key then Pure.pure ()
        else destroyAll (s.modules.map Handle.object) : HostM Unit).run (forgotten h) :=
    fun _ => rfl
  have hForgotten : (forgotten h).Alike (forgotten h') :=
    ⟨hAlike.device, congrArg (fun owners => owners.erase s.key) hAlike.owners, hAlike.lastKey⟩
  have hDestroy : KeepsTo {} (fun _ => True) (destroyAll (s.modules.map Handle.object)) :=
    .destroyAll fun _ _ => trivial
  rw [hRun, hRun, hAlike.owners]
  split
  · exact Heedless.pure () hForgotten
  · exact hDestroy.heedless hForgotten

theorem Pass.heedless_drop (p : Pass) : Heedless p.drop := by
  unfold drop
  cases p.pipeline with
  | none => exact .pure ()
  | some choice => exact choice.shader.heedless_release

theorem Plan.heedless_build (env : Environment) (p : Plan) : Heedless (p.build env) :=
  .bind (p.confined_assemble env).heedless fun _ =>
    .bind (.forM Pass.heedless_drop p.passes) fun _ => .pure _

namespace Graph

theorem keepsTo_execute (g : Graph) (buffer : CommandBuffer) :
    KeepsTo {} (fun _ => True) (g.execute buffer) :=
  .bind (.reportAll fun _ _ => trivial) fun _ _ =>
    .bind (.recordAll fun _ _ => trivial) fun _ _ => .pure trivial

theorem keepsTo_present (g : Graph) (buffer : CommandBuffer) (target : Image) :
    KeepsTo {} (fun _ => True) (g.present buffer target) := by
  unfold present
  split
  · exact .recordAll fun _ _ => trivial
  · exact .report trivial

theorem keepsTo_destroy (g : Graph) : KeepsTo {} (fun _ => True) g.destroy := by
  have hNode : ∀ n : Node, KeepsTo {} (fun _ => True) n.destroy := fun n =>
    .bind (n.objects.keepsTo_destroy.widen (.all _)) fun _ _ => .pure trivial
  exact .bind (.mapM hNode) fun _ _ => .pure trivial

theorem keepsTo_drop (g : Graph) : KeepsTo {} (fun _ => True) g.drop :=
  .bind g.keepsTo_destroy fun _ _ =>
    g.images.keepsTo_drop.widen (.all _)

end Graph

namespace Pool

theorem heedless_withGraph (pool : Pool) (k : Nat) {work : Graph → HostM Pool}
    (hWork : ∀ g, Heedless (work g)) : Heedless (pool.withGraph k work) := by
  unfold withGraph
  split
  · exact .pure pool
  · exact hWork _

theorem heedless_step (pool : Pool) (op : Operation) : Heedless (pool.step op) := by
  cases op with
  | build env plan => exact .bind (plan.heedless_build env) fun _ => .pure _
  | execute k buffer =>
    exact pool.heedless_withGraph k fun g =>
      .bind (g.keepsTo_execute buffer).heedless fun _ => .pure _
  | present k buffer target =>
    exact pool.heedless_withGraph k fun g =>
      .bind (g.keepsTo_present buffer target).heedless fun _ => .pure _
  | destroy k =>
    exact pool.heedless_withGraph k fun g => .bind g.keepsTo_destroy.heedless fun _ => .pure _
  | drop k =>
    exact pool.heedless_withGraph k fun g => .bind g.keepsTo_drop.heedless fun _ => .pure _

/-- Whatever an application does with graphs, it does the same whatever was reported before. -/
theorem heedless_run (pool : Pool) (operations : List Operation) :
    Heedless (pool.run operations) := by
  induction operations generalizing pool with
  | nil => exact .pure pool
  | cons op operations ih => exact .bind (pool.heedless_step op) fun _ => ih _

end Pool

end FrameGraph
