import FrameGraph.Plan.States
import FrameGraph.Proofs.Pass.Compilation

/-! # What is said against passes

Where every image of a pass is there, all that can be wrong with it is its pipeline. It may have
nothing to draw into, and the vertex inputs of its shader may not fit its bindings.
-/

namespace FrameGraph

set_option autoImplicit false

open Traversal

theorem Use.isLive_iff {u : Use} : u.isLive = true ↔ u.name ≠ .placeholder := by
  rw [isLive, Bool.not_eq_true', ← Bool.not_eq_true, Name.isPlaceholder_iff]

namespace StateMap

@[simp] theorem stamp_name (s : StateMap) (u : Use) : (s.stamp u).name = u.name := by
  unfold stamp
  split <;> rfl

theorem stampUses_names (role : ImageState) (s : StateMap) (us : List Use) :
    (stampUses role s us).map Use.name = us.map Use.name := by
  induction us generalizing s with
  | nil => rfl
  | cons u us ih => simp [stampUses, ih]

theorem stampTargets_names {α : Type} (role : ImageState) (s : StateMap)
    (ts : List (Target α)) :
    (stampTargets role s ts).map (fun t => t.name) = ts.map fun t => t.name := by
  induction ts generalizing s with
  | nil => rfl
  | cons t ts ih => simp [stampTargets, ih]

end StateMap

namespace Pass

def HasTarget (p : Pass) : Prop :=
  (∃ c ∈ p.colors, c.name ≠ .placeholder) ∨ ∃ d ∈ p.depth, d.name ≠ .placeholder

/-- What is wrong with the pipeline of the pass. That there is nothing to draw into is seen
first. -/
inductive Rejects (p : Pass) : BuildError → Prop
  | noTargets (hPipeline : p.pipeline ≠ none) (hTarget : ¬ p.HasTarget) :
      Rejects p (.noTargets p.name)
  | packing (choice : PipelineChoice) (hPipeline : p.pipeline = some choice)
      (hTarget : p.HasTarget) (e : PackingError)
      (hPack : VertexLayout.pack choice.shader.attributes choice.bindings = .error e) :
      Rejects p (.packing p.name e)

/-- What is wrong with the first of the passes with which something is wrong. -/
def FirstRejects (passes : List Pass) (e : BuildError) : Prop :=
  ∃ before p after, passes = before ++ p :: after ∧ (∀ q ∈ before, ∀ f, ¬ q.Rejects f) ∧
    p.Rejects e

/-- Each image that the pass uses is there. -/
def Covered (p : Pass) (images : ImageMap) : Prop :=
  ∀ use ∈ p.uses, use.1 ≠ .placeholder → ∃ i, images.get? use.1 = some i

theorem color_mem_uses {p : Pass} {n : Name} :
    (n, .colorTarget) ∈ p.uses ↔ ∃ c ∈ p.colors, c.name = n := by
  simp [uses]

theorem depth_mem_uses {p : Pass} {n : Name} :
    (n, .depthTarget) ∈ p.uses ↔ ∃ d ∈ p.depth, d.name = n := by
  simp [uses]

theorem input_mem_uses {p : Pass} {n : Name} :
    (n, .shaderRead) ∈ p.uses ↔ ∃ u ∈ p.inputs, u.name = n := by
  simp [uses]

theorem hasTarget_iff {p : Pass} : p.HasTarget ↔
    ∃ n, n ≠ .placeholder ∧ ((n, .colorTarget) ∈ p.uses ∨ (n, .depthTarget) ∈ p.uses) := by
  simp only [color_mem_uses, depth_mem_uses]
  constructor
  · rintro (⟨c, hc, hName⟩ | ⟨d, hd, hName⟩)
    · exact ⟨c.name, hName, .inl ⟨c, hc, rfl⟩⟩
    · exact ⟨d.name, hName, .inr ⟨d, hd, rfl⟩⟩
  · rintro ⟨_, hName, ⟨c, hc, rfl⟩ | ⟨d, hd, rfl⟩⟩
    · exact .inl ⟨c, hc, hName⟩
    · exact .inr ⟨d, hd, hName⟩

section Check

variable {p : Pass} {images : ImageMap}

theorem exists_bindColors (h : ∀ n ∈ p.liveColors.map (fun c => c.name),
    ∃ i, images.get? n = some i) : ∃ bs, p.liveColors.mapM (p.bindColor images) = .ok bs := by
  apply exists_mapM_eq_ok.mpr
  intro c hc
  obtain ⟨i, hi⟩ := h c.name (List.mem_map_of_mem hc)
  exact ⟨_, bindColor_eq_ok.mpr ⟨i, hi, rfl⟩⟩

theorem exists_bindDepth (h : ∀ n ∈ p.liveDepth.toList.map (fun d => d.name),
    ∃ i, images.get? n = some i) : ∃ b, p.bindDepth images p.liveDepth = .ok b := by
  cases hDepth : p.liveDepth with
  | none => exact ⟨none, rfl⟩
  | some d =>
    obtain ⟨i, hi⟩ := h d.name (by simp [hDepth])
    exact ⟨some (.ofDepth i d), bindDepth_eq_ok.mpr (.cons ⟨i, hi, rfl⟩ .nil)⟩

theorem Covered.exists_binds (h : p.Covered images) : ∃ t, p.bindTargets images = .ok t := by
  have hColors : ∀ n ∈ p.liveColors.map (fun c => c.name), ∃ i, images.get? n = some i := by
    intro n hn
    obtain ⟨c, hc, rfl⟩ := List.mem_map.mp hn
    obtain ⟨hc, hLive⟩ := List.mem_filter.mp hc
    exact h (c.name, .colorTarget) (color_mem_uses.mpr ⟨c, hc, rfl⟩) (Use.isLive_iff.mp hLive)
  have hDepth : ∀ n ∈ p.liveDepth.toList.map (fun d => d.name), ∃ i, images.get? n = some i := by
    intro n hn
    obtain ⟨d, hd, rfl⟩ := List.mem_map.mp hn
    obtain ⟨hd, hLive⟩ := Option.filter_eq_some_iff.mp (Option.mem_toList.mp hd)
    exact h (d.name, .depthTarget) (depth_mem_uses.mpr ⟨d, hd, rfl⟩) (Use.isLive_iff.mp hLive)
  have hInputs : ∀ u ∈ p.liveInputs, ∃ i, images.get? u.name = some i := by
    intro u hu
    obtain ⟨hu, hLive⟩ := List.mem_filter.mp hu
    exact h (u.name, .shaderRead) (input_mem_uses.mpr ⟨u, hu, rfl⟩) (Use.isLive_iff.mp hLive)
  obtain ⟨colors, hColors⟩ := exists_bindColors hColors
  obtain ⟨depth, hDepth⟩ := exists_bindDepth hDepth
  refine ⟨⟨colors, depth⟩, bindTargets_eq_ok.mpr ⟨?_, bindDepth_eq_ok.mp hDepth, hInputs⟩⟩
  simpa only [bindColor_eq_ok] using (mapM_eq_ok _ _).mp hColors

theorem Binds.isEmpty_iff {t : TargetSet} (h : p.Binds images t) :
    t.isEmpty = true ↔ ¬ p.HasTarget := by
  have hColors := h.colors.length_eq
  have hDepth := h.depth.length_eq
  have hTargets : p.HasTarget ↔ p.liveColors ≠ [] ∨ p.liveDepth.toList ≠ [] := by
    refine or_congr ?_ ?_
    · simp [liveColors, List.filter_eq_nil_iff, Use.isLive_iff]
    · cases hDepth : p.depth with
      | none => simp [liveDepth, hDepth]
      | some d => simp [liveDepth, hDepth, Option.filter, Use.isLive_iff]
  rw [TargetSet.isEmpty, TargetSet.all, List.isEmpty_iff, List.append_eq_nil_iff,
    ← List.length_eq_zero_iff, ← List.length_eq_zero_iff, ← hColors, ← hDepth, hTargets]
  simp

theorem vertexLayout_eq_error {t : TargetSet} (hEmpty : t.isEmpty = true ↔ ¬ p.HasTarget)
    {e : BuildError} : p.vertexLayout t = .error e ↔ p.Rejects e := by
  unfold vertexLayout
  constructor
  · intro h
    cases hPipeline : p.pipeline with
    | none =>
      rw [hPipeline] at h
      cases h
    | some choice =>
      simp only [hPipeline] at h
      by_cases hNone : t.isEmpty = true
      · rw [if_pos hNone] at h
        cases h
        exact .noTargets (by simp [hPipeline]) (hEmpty.mp hNone)
      · rw [if_neg hNone] at h
        have hTarget : p.HasTarget := Classical.not_not.mp fun hTarget =>
          hNone (hEmpty.mpr hTarget)
        cases hPack : VertexLayout.pack choice.shader.attributes choice.bindings with
        | ok layout =>
          rw [hPack] at h
          cases h
        | error failure =>
          rw [hPack] at h
          cases h
          exact .packing choice hPipeline hTarget failure hPack
  · intro h
    cases h with
    | noTargets hPipeline hTarget =>
      obtain ⟨choice, hChoice⟩ := Option.ne_none_iff_exists'.mp hPipeline
      simp [hChoice, hEmpty.mpr hTarget]
    | packing choice hPipeline hTarget failure hPack =>
      have hSome : ¬ t.isEmpty = true := fun hNone => hEmpty.mp hNone hTarget
      simp [hPipeline, hSome, hPack]

theorem check_eq_error (h : p.Covered images) {e : BuildError} :
    p.check images = .error e ↔ p.Rejects e := by
  obtain ⟨t, hTargets⟩ := h.exists_binds
  rw [check, hTargets, ← vertexLayout_eq_error (bindTargets_eq_ok.mp hTargets).isEmpty_iff]
  rfl

end Check

/-! Filling in the states in which passes find their images changes none of this. -/

theorem uses_resolve (s : StateMap) (p : Pass) : (p.resolve s).uses = p.uses := by
  have hInputs : (p.resolve s).inputs.map (fun u => (u.name, ImageState.shaderRead)) =
      p.inputs.map fun u => (u.name, .shaderRead) := by
    have hNames := congrArg (List.map fun n => (n, ImageState.shaderRead))
      (StateMap.stampUses_names .shaderRead s p.inputs)
    rwa [List.map_map, List.map_map] at hNames
  have hColors : (p.resolve s).colors.map (fun t => (t.name, ImageState.colorTarget)) =
      p.colors.map fun t => (t.name, .colorTarget) := by
    have hNames := congrArg (List.map fun n => (n, ImageState.colorTarget))
      (StateMap.stampTargets_names .colorTarget
        (s.steps (p.inputs.map fun u => (u.name, .shaderRead))) p.colors)
    rwa [List.map_map, List.map_map] at hNames
  have hDepth : (p.resolve s).depth.toList.map (fun t => (t.name, ImageState.depthTarget)) =
      p.depth.toList.map fun t => (t.name, .depthTarget) := by
    cases hTarget : p.depth with
    | none => simp [resolve, hTarget]
    | some d => simp [resolve, hTarget]
  rw [uses, uses, hInputs, hColors, hDepth]

theorem hasTarget_resolve {s : StateMap} {p : Pass} : (p.resolve s).HasTarget ↔ p.HasTarget := by
  rw [hasTarget_iff, uses_resolve, ← hasTarget_iff]

theorem rejects_resolve {s : StateMap} {p : Pass} {e : BuildError} :
    (p.resolve s).Rejects e ↔ p.Rejects e := by
  constructor
  · rintro (⟨hPipeline, hNone⟩ | ⟨choice, hPipeline, hSome, failure, hPack⟩)
    · exact .noTargets hPipeline (hasTarget_resolve.not.mp hNone)
    · exact Rejects.packing (p := p) choice hPipeline (hasTarget_resolve.mp hSome) failure hPack
  · rintro (⟨hPipeline, hNone⟩ | ⟨choice, hPipeline, hSome, failure, hPack⟩)
    · exact .noTargets hPipeline (hasTarget_resolve.not.mpr hNone)
    · exact Rejects.packing (p := p.resolve s) choice hPipeline (hasTarget_resolve.mpr hSome)
        failure hPack

theorem not_firstRejects_nil {e : BuildError} : ¬ FirstRejects [] e := by
  rintro ⟨before, p, after, hSplit, -⟩
  simp at hSplit

theorem firstRejects_cons {p : Pass} {rest : List Pass} {e : BuildError} :
    FirstRejects (p :: rest) e ↔
      p.Rejects e ∨ (∀ f, ¬ p.Rejects f) ∧ FirstRejects rest e := by
  constructor
  · rintro ⟨before, q, after, hSplit, hBefore, hq⟩
    cases before with
    | nil =>
      obtain ⟨rfl, -⟩ := List.cons.inj hSplit
      exact .inl hq
    | cons p' before =>
      obtain ⟨rfl, hRest⟩ := List.cons.inj hSplit
      obtain ⟨hHead, hBefore⟩ := List.forall_mem_cons.mp hBefore
      exact .inr ⟨hHead, before, q, after, hRest, hBefore, hq⟩
  · rintro (hp | ⟨hHead, before, q, after, rfl, hBefore, hq⟩)
    · exact ⟨[], p, rest, rfl, List.forall_mem_nil _, hp⟩
    · exact ⟨p :: before, q, after, rfl, List.forall_mem_cons.mpr ⟨hHead, hBefore⟩, hq⟩

theorem Rejects.unique {p : Pass} {e f : BuildError} (he : p.Rejects e) (hf : p.Rejects f) :
    e = f := by
  cases he with
  | noTargets hPipeline hTarget =>
    cases hf with
    | noTargets => rfl
    | packing _ _ hSome => exact absurd hSome hTarget
  | packing choice hPipeline hTarget failure hPack =>
    cases hf with
    | noTargets _ hNone => exact absurd hTarget hNone
    | packing choice' hPipeline' _ failure' hPack' =>
      obtain rfl := Option.some.inj (hPipeline.symm.trans hPipeline')
      rw [Except.error.inj (hPack.symm.trans hPack')]

theorem FirstRejects.unique {passes : List Pass} {e f : BuildError}
    (he : FirstRejects passes e) (hf : FirstRejects passes f) : e = f := by
  induction passes with
  | nil => exact absurd he not_firstRejects_nil
  | cons p rest ih =>
    rcases firstRejects_cons.mp he with he | ⟨hNone, he⟩
    · rcases firstRejects_cons.mp hf with hf | ⟨hNone, -⟩
      · exact he.unique hf
      · exact absurd he (hNone e)
    · rcases firstRejects_cons.mp hf with hf | ⟨-, hf⟩
      · exact absurd hf (hNone f)
      · exact ih he hf

theorem exists_firstRejects {passes : List Pass} :
    (∃ e, FirstRejects passes e) ↔ ∃ p ∈ passes, ∃ e, p.Rejects e := by
  constructor
  · rintro ⟨e, before, p, after, rfl, -, hp⟩
    exact ⟨p, by simp, e, hp⟩
  · rintro ⟨p, hMem, e, hp⟩
    induction passes with
    | nil => cases hMem
    | cons q rest ih =>
      by_cases hq : ∃ f, q.Rejects f
      · obtain ⟨f, hf⟩ := hq
        exact ⟨f, firstRejects_cons.mpr (.inl hf)⟩
      · rcases List.mem_cons.mp hMem with rfl | hMem
        · exact absurd ⟨e, hp⟩ hq
        · obtain ⟨f, hf⟩ := ih hMem
          exact ⟨f, firstRejects_cons.mpr (.inr ⟨not_exists.mp hq, hf⟩)⟩

/-- The passes of a plan fail their checks as the declared passes ask for. -/
theorem mapM_check_eq_error {images : ImageMap} (s : StateMap) {passes : List Pass}
    (hImages : ∀ p ∈ passes, p.Covered images) {e : BuildError} :
    ((resolveAll s passes).mapM fun p => p.check images) = .error e ↔ FirstRejects passes e := by
  induction passes generalizing s with
  | nil => exact iff_of_false nofun not_firstRejects_nil
  | cons p rest ih =>
    obtain ⟨hHead, hRest⟩ := List.forall_mem_cons.mp hImages
    have hCovered : (p.resolve s).Covered images := fun use hUse =>
      hHead use (uses_resolve s p ▸ hUse)
    have hCheck : ∀ f, (p.resolve s).check images = .error f ↔ p.Rejects f := fun f => by
      rw [check_eq_error hCovered, rejects_resolve]
    have hFine : (∃ layout, (p.resolve s).check images = .ok layout) ↔ ∀ f, ¬ p.Rejects f :=
      exists_eq_ok_iff.trans (forall_congr' fun f => not_congr (hCheck f))
    rw [resolveAll, mapM_cons_eq_error, hCheck, hFine, firstRejects_cons, ih (p.leaves s) hRest]

end Pass

end FrameGraph
