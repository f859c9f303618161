import FrameGraph.Plan.Build
import FrameGraph.Proofs.Image.Confinement
import FrameGraph.Proofs.Pass.Failure

/-! # What building a graph keeps to

The images of a plan are created one after the other, and then the objects of its passes. Nothing
but images is released in an order of its own, and only when the building fails.
-/

namespace FrameGraph

set_option autoImplicit false

open Host

namespace ImageMap

def scope : Scope where
  calls := Call.Concerns Image.kinds

theorem within_scope : (Scope.about Image.kinds).Within scope :=
  ⟨fun _ hCall => hCall, fun _ _ => trivial, fun _ => trivial⟩

theorem keepsTo_drop (images : ImageMap) : KeepsTo scope (fun _ => True) images.drop := by
  refine .bind (.step (.shuffled Image.objects images.values trivial) fun _ h => h) fun _ _ => ?_
  exact .forM fun i _ => i.keepsTo_drop.widen within_scope

end ImageMap

namespace UsageMap

/-- Why no image can be created for one of the usages with the error. -/
def Stuck (uses : List (Name × ImageUsage)) (e : BuildError) : Prop :=
  (∃ u ∈ uses, kindOf u.1 u.2 = .error e) ∨ ∃ cause, e = .image cause

variable (env : Environment) {uses : List (Name × ImageUsage)}

theorem confined_createImage {name : Name} {usage : ImageUsage} (hUse : (name, usage) ∈ uses) :
    Confined (.about Image.kinds) (Stuck uses) (createImage env name usage) := by
  refine .ofExcept_bind (fun kind _ => ?_) fun e he => .inl ⟨_, hUse, he⟩
  have hCreate := Image.confined_create env (env.surface.request name usage kind)
  refine .bind (.adapt (hCreate.mono fun cause _ => .inr ⟨cause, rfl⟩)) fun image => ?_
  exact .always_bind (.report trivial) fun _ _ => .pure image

theorem confined_createImages {rest : List (Name × ImageUsage)} (hRest : rest ⊆ uses)
    (images : ImageMap) :
    Confined ImageMap.scope (Stuck uses) (createImages env rest images) := by
  induction rest generalizing images with
  | nil => exact .pure images
  | cons u rest ih =>
    obtain ⟨hUse, hRest⟩ := List.cons_subset.mp hRest
    have hImage := (confined_createImage env hUse).widen ImageMap.within_scope
    exact .bind (.cleaningUp images.keepsTo_drop hImage) fun i => ih hRest _

theorem confined_allocate (m : UsageMap) (output : Name) :
    Confined ImageMap.scope (fun e => m.checkOutput output = .error e ∨ Stuck m.entries e)
      (m.allocate env output) := by
  have hImages := confined_createImages env (List.Subset.refl m.entries) .empty
  exact .ofExcept_bind (fun _ _ => hImages.mono fun _ => .inr) fun _ => .inl

end UsageMap

namespace Plan

/-- The calls about the objects of some passes. -/
def Compiles.scope (passes : List Pass) : Scope where
  calls c := ∃ p ∈ passes, p.Issues c
  releases := False

theorem keepsTo_giveUp {p : Pass} {passes : List Pass} (hp : p ∈ passes) (nodes : List Node)
    (e : BuildError) :
    KeepsTo (Compiles.scope passes) (fun _ => True) (giveUp p nodes e) := by
  refine .bind (.report trivial) fun _ _ => .forM fun n _ => .destroyAll fun o ho => ?_
  exact ⟨p, hp, .destroy p (PassObjects.kind_of_mem_objects ho)⟩

theorem confined_compileAll (images : ImageMap) {passes rest : List Pass} (hRest : rest ⊆ passes)
    (nodes : List Node) :
    Confined (Compiles.scope passes) (fun e => ∃ p ∈ passes, p.Fails images e)
      (compileAll images rest nodes) := by
  induction rest generalizing nodes with
  | nil => exact .pure nodes
  | cons p rest ih =>
    obtain ⟨hp, hRest⟩ := List.cons_subset.mp hRest
    have hScope : Scope.Within { calls := p.Issues, releases := False } (Compiles.scope passes) :=
      ⟨fun _ hCall => ⟨p, hp, hCall⟩, fun _ hNotice => hNotice, False.elim⟩
    have hCompile : Confined (Compiles.scope passes) (fun e => ∃ q ∈ passes, q.Fails images e)
        (p.compile images) :=
      ((p.confined_compile images).mono fun _ hFails => ⟨p, hp, hFails⟩).widen hScope
    exact .bind (.onFailure (keepsTo_giveUp hp nodes) hCompile) fun o => ih hRest _

/-- The calls about images and about the objects of the passes of the plan. -/
def scope (p : Plan) : Scope where
  calls c := c.Concerns Image.kinds ∨ ∃ q ∈ p.passes, q.Issues c

theorem confined_assemble (env : Environment) (p : Plan) :
    Confined p.scope (fun _ => True) (p.assemble env) := by
  have hImages : ImageMap.scope.Within p.scope :=
    ⟨fun _ => .inl, fun _ hNotice => hNotice, fun h => h⟩
  have hNodes : (Compiles.scope p.passes).Within p.scope :=
    ⟨fun _ => .inr, fun _ hNotice => hNotice, False.elim⟩
  have hAllocate := (UsageMap.confined_allocate env p.usages p.output).mono fun _ _ => trivial
  refine .bind (hAllocate.widen hImages) fun images => ?_
  have hPasses := List.Subset.refl p.passes
  have hCompile := (confined_compileAll images hPasses []).mono fun _ _ => trivial
  refine .bind (.cleaningUp (images.keepsTo_drop.widen hImages) (hCompile.widen hNodes))
    fun nodes => ?_
  exact .always_bind (.report trivial) fun _ _ => .pure _

end Plan

end FrameGraph
