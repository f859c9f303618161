import FrameGraph.Pass.Objects
import FrameGraph.Proofs.Host.Confinement

/-! # The calls that let go of shaders

Letting go of a shader destroys its modules if nobody else owns it, and nothing otherwise. Owners
only ever become fewer on the way, so a shader whose modules are gone stays without owners.
-/

namespace FrameGraph

set_option autoImplicit false

open Host

namespace Shader

def objects (s : Shader) : List Object := s.modules.map Handle.object

theorem kind_of_mem_objects {s : Shader} {o : Object} (ho : o ∈ s.objects) :
    o.kind = .shaderModule := by
  obtain ⟨m, -, rfl⟩ := List.mem_map.mp ho
  rfl

/-- The modules that go when only these owners are left. -/
def modulesLeft (s : Shader) (owners : List Nat) : List Object :=
  if owners.contains s.key then [] else s.objects

theorem run_release (s : Shader) (h : Host) :
    Sent h (s.release.run h).2 ((s.modulesLeft (h.owners.erase s.key)).map .destroy) ∧
      ownership (s.release.run h).2 = (h.owners.erase s.key, h.lastKey) := by
  let forgotten : Host := { h with owners := h.owners.erase s.key }
  have hRun : s.release.run h =
      (if forgotten.owners.contains s.key then pure () else destroyAll s.objects : HostM Unit).run
        forgotten := rfl
  have hSent : Sent h forgotten [] := .of_device_eq rfl
  have hDestroy : KeepsTo {} (fun _ => True) (destroyAll s.objects) :=
    .destroyAll fun _ _ => trivial
  rw [hRun, modulesLeft]
  split
  · exact ⟨hSent, rfl⟩
  · exact ⟨hSent.trans (sent_destroyAll _ _), hDestroy.preserves_ownership forgotten⟩

theorem sent_release (s : Shader) (h : Host) :
    ∃ os : List Object, Sent h (s.release.run h).2 (os.map .destroy) ∧
      (s.release.run h).2.owners = h.owners.erase s.key ∧
      ∀ o ∈ os, o ∈ s.objects ∧ s.key ∉ (s.release.run h).2.owners := by
  obtain ⟨hSent, hOwnership⟩ := s.run_release h
  have hOwners : (s.release.run h).2.owners = h.owners.erase s.key := congrArg Prod.fst hOwnership
  refine ⟨_, hSent, hOwners, fun o ho => ?_⟩
  rw [hOwners]
  by_cases hKey : (h.owners.erase s.key).contains s.key = true
  · rw [modulesLeft, if_pos hKey] at ho
    cases ho
  · rw [modulesLeft, if_neg hKey] at ho
    exact ⟨ho, fun hMem => hKey (List.contains_iff_mem.mpr hMem)⟩

end Shader

namespace Pass

/-- The object is a module of the shader of the pass, and nobody owns that shader any more. -/
def LetGo (owners : List Nat) (p : Pass) (o : Object) : Prop :=
  ∃ choice, p.pipeline = some choice ∧ o ∈ choice.shader.objects ∧ choice.shader.key ∉ owners

theorem LetGo.mono {owners owners' : List Nat} (hOwners : owners' ⊆ owners) {p : Pass} {o : Object}
    (h : p.LetGo owners o) : p.LetGo owners' o := by
  obtain ⟨choice, hChoice, ho, hKey⟩ := h
  exact ⟨choice, hChoice, ho, fun hMem => hKey (hOwners hMem)⟩

theorem LetGo.kind {owners : List Nat} {p : Pass} {o : Object} (h : p.LetGo owners o) :
    o.kind = .shaderModule := by
  obtain ⟨_, -, ho, -⟩ := h
  exact Shader.kind_of_mem_objects ho

theorem sent_drop (p : Pass) (h : Host) :
    ∃ os : List Object, Sent h (p.drop.run h).2 (os.map .destroy) ∧
      (p.drop.run h).2.owners ⊆ h.owners ∧ ∀ o ∈ os, p.LetGo (p.drop.run h).2.owners o := by
  unfold drop
  cases hPipeline : p.pipeline with
  | none => exact ⟨[], .refl h, fun _ hKey => hKey, nofun⟩
  | some choice =>
    obtain ⟨os, hSent, hOwners, hGone⟩ := choice.shader.sent_release h
    refine ⟨os, hSent, ?_, fun o ho => ⟨choice, hPipeline, hGone o ho⟩⟩
    exact hOwners ▸ List.erase_subset

theorem sent_dropAll (passes : List Pass) (h : Host) :
    ∃ os : List Object, Sent h ((passes.forM drop : HostM Unit).run h).2 (os.map .destroy) ∧
      ((passes.forM drop : HostM Unit).run h).2.owners ⊆ h.owners ∧
      ∀ o ∈ os, ∃ p ∈ passes, p.LetGo ((passes.forM drop : HostM Unit).run h).2.owners o := by
  induction passes generalizing h with
  | nil => exact ⟨[], .refl h, fun _ hKey => hKey, nofun⟩
  | cons p passes ih =>
    obtain ⟨os, hSent, hFewer, hGone⟩ := p.sent_drop h
    obtain ⟨os', hSent', hFewer', hGone'⟩ := ih (p.drop.run h).2
    refine ⟨os ++ os', List.map_append ▸ hSent.trans hSent', List.Subset.trans hFewer' hFewer,
      fun o ho => ?_⟩
    rcases List.mem_append.mp ho with ho | ho
    · exact ⟨p, List.mem_cons_self, (hGone o ho).mono hFewer'⟩
    · obtain ⟨q, hq, hLetGo⟩ := hGone' o ho
      exact ⟨q, List.mem_cons_of_mem p hq, hLetGo⟩

end Pass

end FrameGraph
