import FrameGraph.Pass.Targets
import FrameGraph.Proofs.Traversal

/-! # Which images a pass binds

Binding the targets of a pass succeeds exactly when every name of the pass has an image, and then
every target is bound to the image of its name.
-/

namespace FrameGraph

set_option autoImplicit false

open Traversal

namespace Pass

/-- Each target has the image of its name behind it, and what the pass samples is there. -/
structure Binds (p : Pass) (images : ImageMap) (t : TargetSet) : Prop where
  colors : List.Forall₂
    (fun (c : Target Color) b => ∃ i, images.get? c.name = some i ∧ b = .ofColor i c)
    p.liveColors t.colors
  depth : List.Forall₂
    (fun (d : Target DepthStencil) b => ∃ i, images.get? d.name = some i ∧ b = .ofDepth i d)
    p.liveDepth.toList t.depth.toList
  inputs : ∀ u ∈ p.liveInputs, ∃ i, images.get? u.name = some i

theorem imageOf_eq_ok {p : Pass} {images : ImageMap} {n : Name} {i : Image} :
    p.imageOf images n = .ok i ↔ images.get? n = some i := by
  unfold imageOf
  cases images.get? n with
  | none => exact ⟨nofun, nofun⟩
  | some j =>
    constructor
    · rintro ⟨⟩
      rfl
    · rintro ⟨⟩
      rfl

theorem bindColor_eq_ok {p : Pass} {images : ImageMap} {c : Target Color} {b : BoundTarget} :
    p.bindColor images c = .ok b ↔ ∃ i, images.get? c.name = some i ∧ b = .ofColor i c := by
  unfold bindColor
  rw [bind_eq_ok]
  simp only [imageOf_eq_ok]
  constructor
  · rintro ⟨i, hi, ⟨⟩⟩
    exact ⟨i, hi, rfl⟩
  · rintro ⟨i, hi, rfl⟩
    exact ⟨i, hi, rfl⟩

theorem bindDepth_eq_ok {p : Pass} {images : ImageMap} {d : Option (Target DepthStencil)}
    {b : Option BoundTarget} :
    p.bindDepth images d = .ok b ↔ List.Forall₂
      (fun (d : Target DepthStencil) b => ∃ i, images.get? d.name = some i ∧ b = .ofDepth i d)
      d.toList b.toList := by
  cases d with
  | none =>
    constructor
    · rintro ⟨⟩
      exact .nil
    · intro h
      cases b with
      | none => rfl
      | some b => cases h
  | some d =>
    simp only [bindDepth, bind_eq_ok, imageOf_eq_ok]
    constructor
    · rintro ⟨i, hi, ⟨⟩⟩
      exact .cons ⟨i, hi, rfl⟩ .nil
    · intro h
      cases b with
      | none => cases h
      | some b =>
        obtain ⟨⟨i, hi, rfl⟩, -⟩ := List.forall₂_cons.mp h
        exact ⟨i, hi, rfl⟩

theorem bindTargets_eq_ok {p : Pass} {images : ImageMap} {t : TargetSet} :
    p.bindTargets images = .ok t ↔ p.Binds images t := by
  unfold bindTargets
  simp only [bind_eq_ok, mapM_eq_ok, bindColor_eq_ok, bindDepth_eq_ok]
  constructor
  · rintro ⟨colors, hColors, depth, hDepth, ⟨⟩, hInputs, ⟨⟩⟩
    refine ⟨hColors, hDepth, fun u hu => ?_⟩
    obtain ⟨i, hi, -⟩ := bind_eq_ok.mp (forM_eq_ok.mp hInputs u hu)
    exact ⟨i, imageOf_eq_ok.mp hi⟩
  · rintro ⟨hColors, hDepth, hInputs⟩
    refine ⟨t.colors, hColors, t.depth, hDepth, (), forM_eq_ok.mpr fun u hu => ?_, rfl⟩
    obtain ⟨i, hi⟩ := hInputs u hu
    exact bind_eq_ok.mpr ⟨i, imageOf_eq_ok.mpr hi, rfl⟩

theorem Binds.image_mem {p : Pass} {images : ImageMap} {t : TargetSet} (h : p.Binds images t)
    {b : BoundTarget} (hb : b ∈ t.all) : ∃ n, images.get? n = some b.image := by
  rcases List.mem_append.mp hb with hb | hb
  · obtain ⟨c, -, i, hi, rfl⟩ := exists_left_of_mem h.colors hb
    exact ⟨c.name, hi⟩
  · obtain ⟨d, -, i, hi, rfl⟩ := exists_left_of_mem h.depth hb
    exact ⟨d.name, hi⟩

end Pass

end FrameGraph
