import FrameGraph.Graph.Basic
import FrameGraph.Proofs.Graph.Recording

/-! # The end of a graph

Destroying a graph leaves the graph with its images and without anything else; dropping it
destroys what it owns at that moment.
-/

namespace FrameGraph

set_option autoImplicit false

open Host

@[simp] theorem PassObjects.objects_cleared (o : PassObjects) : o.cleared.objects = [] := rfl

namespace Node

def cleared (n : Node) : Node := { n with objects := n.objects.cleared }

@[simp] theorem allObjects_cleared (nodes : List Node) :
    allObjects (nodes.map cleared) = [] := by
  simp [allObjects, cleared]

@[simp] theorem allObjects_ran (nodes : List Node) :
    allObjects (nodes.map ran) = allObjects nodes := by
  simp [allObjects, ran, List.flatMap_map]

theorem run_destroyAll (nodes : List Node) (h : Host) :
    ((nodes.mapM destroy : HostM (List Node)).run h).1 = nodes.map cleared ∧
      Sent h ((nodes.mapM destroy : HostM (List Node)).run h).2
        ((allObjects nodes).map .destroy) := by
  induction nodes generalizing h with
  | nil => exact ⟨rfl, .refl h⟩
  | cons n nodes ih =>
    obtain ⟨hRest, hSent⟩ := ih ((destroyAll n.objects.objects).run h).2
    rw [List.mapM_cons]
    constructor
    · exact congrArg (n.cleared :: ·) hRest
    · have hAll := (sent_destroyAll n.objects.objects h).trans hSent
      rwa [← List.map_append] at hAll

end Node

namespace Graph

def cleared (g : Graph) : Graph := { g with nodes := g.nodes.map Node.cleared }

theorem destroy_result (g : Graph) (h : Host) : (g.destroy.run h).1 = g.cleared :=
  congrArg (fun nodes => { g with nodes := nodes }) (Node.run_destroyAll g.nodes h).1

theorem sent_destroy (g : Graph) (h : Host) :
    Sent h (g.destroy.run h).2 ((Node.allObjects g.nodes).map .destroy) :=
  (Node.run_destroyAll g.nodes h).2

/-- The images go last, in some order. -/
theorem sent_drop (g : Graph) (h : Host) :
    ∃ released : List Object, released.Perm g.images.objects ∧
      Sent h (g.drop.run h).2 ((Node.allObjects g.nodes ++ released).map .destroy) := by
  have hSent := (g.sent_destroy h).trans (ImageMap.sent_drop g.images (g.destroy.run h).2)
  rw [← List.map_append] at hSent
  exact ⟨_, Image.releasedObjects_perm _ _, hSent⟩

end Graph

end FrameGraph
