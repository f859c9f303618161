import FrameGraph.Proofs.Plan.Build
import FrameGraph.Proofs.Plan.Flags
import Mathlib

/-! # Which drafts can be built

On a device that refuses nothing, whether a draft can be built is a matter of its passes and its
output alone, and so is the error if it cannot.
-/

namespace FrameGraph

set_option autoImplicit false

open Host Traversal

namespace Draft

def DrawsColor (d : Draft) (n : Name) : Prop :=
  n ≠ .placeholder ∧ ∃ p ∈ d.passes, ∃ c ∈ p.colors, c.name = n

def DrawsDepth (d : Draft) (n : Name) : Prop :=
  n ≠ .placeholder ∧ ∃ p ∈ d.passes, ∃ t ∈ p.depth, t.name = n

structure Buildable (d : Draft) : Prop where
  output : ¬ d.DrawsDepth d.output
  roles : ∀ n, ¬ (d.DrawsColor n ∧ d.DrawsDepth n)
  targets : ∀ p ∈ d.passes, p.pipeline ≠ none → p.HasTarget
  packing : ∀ p ∈ d.passes, ∀ choice, p.pipeline = some choice →
    ∃ layout, VertexLayout.pack choice.shader.attributes choice.bindings = .ok layout

/-- What is wrong with the draft. The roles are seen before the passes. -/
inductive Fails (d : Draft) (e : BuildError) : Prop
  | roles (h : RolesFail d.DrawsColor d.DrawsDepth d.output e)
  | passes (hRoles : ∀ f, ¬ RolesFail d.DrawsColor d.DrawsDepth d.output f)
      (h : Pass.FirstRejects d.passes e)

section Usages

variable {d : Draft}

theorem asks_colorTarget (n : Name) : d.plan.usages.Asks n .colorTarget ↔ d.DrawsColor n :=
  UsageMap.asks_colorTarget

theorem asks_depthTarget (n : Name) : d.plan.usages.Asks n .depthTarget ↔ d.DrawsDepth n :=
  UsageMap.asks_depthTarget

theorem check_eq_error {e : BuildError} :
    d.plan.usages.check d.output = .error e ↔
      RolesFail d.DrawsColor d.DrawsDepth d.output e := by
  rw [UsageMap.check_eq_error, funext fun n => propext (asks_colorTarget n),
    funext fun n => propext (asks_depthTarget n)]

theorem exists_check_eq_ok : (∃ kinds, d.plan.usages.check d.output = .ok kinds) ↔
    ¬ d.DrawsDepth d.output ∧ ∀ n, ¬ (d.DrawsColor n ∧ d.DrawsDepth n) := by
  simp only [UsageMap.exists_check_eq_ok, asks_colorTarget, asks_depthTarget]

theorem covered {s : Surface} {images : ImageMap} {log : List Call}
    (h : UsageMap.Allocates s d.plan.usages.entries images.entries log) :
    ∀ p ∈ d.passes, p.Covered images := by
  intro p hp use hUse hName
  have hContained : (d.plan.usages.get? use.1).isSome = true :=
    UsageMap.contains_ofPasses.mpr ⟨hName, .inl ⟨use.2, List.mem_flatMap.mpr ⟨p, hp, hUse⟩⟩⟩
  have hKey := NameMap.exists_get?_eq_some.mp (Option.isSome_iff_exists.mp hContained)
  rw [NameMap.keys, ← h.names] at hKey
  exact NameMap.exists_get?_eq_some.mpr hKey

end Usages

theorem passes_buildable {p : Pass} : (∀ e, ¬ p.Rejects e) ↔ (p.pipeline ≠ none → p.HasTarget) ∧
    ∀ choice, p.pipeline = some choice →
      ∃ layout, VertexLayout.pack choice.shader.attributes choice.bindings = .ok layout := by
  constructor
  · intro h
    have hTarget : p.pipeline ≠ none → p.HasTarget := fun hPipeline =>
      Classical.not_not.mp fun hNone => h _ (.noTargets hPipeline hNone)
    refine ⟨hTarget, fun choice hPipeline => exists_eq_ok_iff.mpr fun e hPack => ?_⟩
    exact h _ (.packing choice hPipeline (hTarget (by simp [hPipeline])) e hPack)
  · rintro ⟨hTarget, hPacks⟩ _ (⟨hPipeline, hNone⟩ | ⟨choice, hPipeline, -, e, hPack⟩)
    · exact hNone (hTarget hPipeline)
    · exact exists_eq_ok_iff.mp (hPacks choice hPipeline) e hPack

theorem buildable_iff {d : Draft} : d.Buildable ↔ ∀ e, ¬ d.Fails e := by
  have hRoles : (¬ d.DrawsDepth d.output ∧ ∀ n, ¬ (d.DrawsColor n ∧ d.DrawsDepth n)) ↔
      ∀ e, ¬ RolesFail d.DrawsColor d.DrawsDepth d.output e := by
    rw [← exists_check_eq_ok, exists_eq_ok_iff]
    exact forall_congr' fun e => not_congr check_eq_error
  have hPasses : (∀ p ∈ d.passes, ∀ e, ¬ p.Rejects e) ↔
      ∀ e, ¬ Pass.FirstRejects d.passes e := by
    rw [← not_exists, Pass.exists_firstRejects]
    simp
  constructor
  · rintro ⟨hOutput, hNames, hTargets, hPacking⟩ e (hFail | ⟨-, hFail⟩)
    · exact hRoles.mp ⟨hOutput, hNames⟩ e hFail
    · refine hPasses.mp (fun p hp => ?_) e hFail
      exact passes_buildable.mpr ⟨hTargets p hp, hPacking p hp⟩
  · intro h
    have hNoRoles : ∀ e, ¬ RolesFail d.DrawsColor d.DrawsDepth d.output e := fun e hFail =>
      h e (.roles hFail)
    have hNoPasses := hPasses.mpr fun e hFail => h e (.passes hNoRoles hFail)
    obtain ⟨hOutput, hNames⟩ := hRoles.mpr hNoRoles
    exact ⟨hOutput, hNames, fun p hp => (passes_buildable.mp (hNoPasses p hp)).1,
      fun p hp => (passes_buildable.mp (hNoPasses p hp)).2⟩

end Draft

theorem Script.obliging {s : Script} {m : MemoryTable}
    (hCalls : ∀ request turn, s.refusal request turn = none)
    (hCount : m.count ≤ MemoryTable.capacity)
    (hMemory : ∀ query, ∃ i < m.count, m.fits (s.needs query).typeBits .deviceLocal i = true) :
    s.Obliging m := by
  refine ⟨hCalls, fun query => ?_⟩
  obtain ⟨i, hBound, hFits⟩ := hMemory query
  have hFound : (m.firstFit (s.needs query).typeBits .deviceLocal).isSome = true :=
    List.find?_isSome.mpr ⟨i, List.mem_range.mpr hBound, hFits⟩
  obtain ⟨index, hIndex⟩ := Option.isSome_iff_exists.mp hFound
  have hNoOverrun : ¬ m.overruns = true := by simpa [MemoryTable.overruns] using hCount
  exact ⟨index, by rw [MemoryTable.search, if_neg hNoOverrun, hIndex]⟩

namespace Draft

/-- Nothing is created for a draft whose output is a depth target. -/
theorem assemble_depthOutput {d : Draft} (hDepth : d.DrawsDepth d.output) (env : Environment)
    (h : Host) : ((d.plan.assemble env).run.run h).2 = h := by
  rcases exists_ok_or_error (d.plan.usages.checkOutput d.output) with ⟨⟨⟩, hOk⟩ | ⟨e, hError⟩
  · exact absurd ((asks_depthTarget d.output).mpr hDepth) (UsageMap.checkOutput_eq_ok.mp hOk)
  · have hRun : (d.plan.usages.allocate env d.plan.output).run.run h = (.error e, h) := by
      have hPlan : d.plan.usages.checkOutput d.plan.output = .error e := hError
      rw [UsageMap.allocate, hPlan]
      rfl
    rw [Plan.assemble, run_bind, hRun]

/-- What a build says of the plan is what is wrong with the draft. -/
theorem fails_of_objects {d : Draft} {env : Environment} {e : BuildError}
    (h : d.plan.Objects env e) : d.Fails e := by
  rcases h with hUsages | ⟨hKinds, images, calls, hAllocates, hPasses⟩
  · exact .roles (check_eq_error.mp hUsages)
  · refine .passes (fun f hFail => ?_)
      ((Pass.mapM_check_eq_error {} (covered hAllocates)).mp hPasses)
    exact exists_eq_ok_iff.mp hKinds f (check_eq_error.mpr hFail)

theorem not_fails_of_assembled {d : Draft} {env : Environment} {g : Graph}
    {imageCalls nodeCalls : List Call} (h : d.plan.Assembled env g imageCalls nodeCalls)
    (e : BuildError) : ¬ d.Fails e := by
  rintro (hFail | ⟨-, hFail⟩)
  · exact exists_eq_ok_iff.mp h.usages e (check_eq_error.mpr hFail)
  · exact exists_eq_ok_iff.mp h.nodes.checks e
      ((Pass.mapM_check_eq_error {} (covered h.images)).mpr hFail)

theorem Fails.unique {d : Draft} {e f : BuildError} (he : d.Fails e) (hf : d.Fails f) :
    e = f := by
  rcases he with he | ⟨hRoles, he⟩
  · rcases hf with hf | ⟨hRoles, -⟩
    · exact Except.error.inj ((check_eq_error.mpr he).symm.trans (check_eq_error.mpr hf))
    · exact absurd he (hRoles e)
  · rcases hf with hf | ⟨-, hf⟩
    · exact absurd hf (hRoles f)
    · exact he.unique hf

theorem exists_build {d : Draft} {env : Environment} {h : Host}
    (hObliging : h.device.script.Obliging env.memory) (hBuildable : d.Buildable) :
    ∃ g h₁, (d.plan.build env).run h = (.ok g, h₁) := by
  obtain ⟨log, os, -, -, hEnd⟩ := d.plan.build_cases env h
  rcases hEnd with ⟨g, _, _, hOk, -⟩ | ⟨e, -, -, hReason⟩
  · exact ⟨g, _, Prod.ext hOk rfl⟩
  · have hFails := fails_of_objects (hReason.resolve_right (not_not_intro hObliging))
    exact absurd hFails (buildable_iff.mp hBuildable e)

/-- Without refusals a draft can be built exactly if nothing is wrong with it, and otherwise the
error is what is wrong. If it is the output, no call is made but those that let go of shaders. -/
theorem build_outcome (d : Draft) (env : Environment) (h : Host)
    (hCalls : ∀ request turn, h.device.script.refusal request turn = none)
    (hCount : env.memory.count ≤ MemoryTable.capacity)
    (hMemory : ∀ query, ∃ i < env.memory.count,
      env.memory.fits (h.device.script.needs query).typeBits .deviceLocal i = true) :
    ((∃ g, ((d.plan.build env).run h).1 = .ok g) ↔ d.Buildable) ∧
      (∀ e, ((d.plan.build env).run h).1 = .error e ↔ d.Fails e) ∧
      (d.DrawsDepth d.output →
        ((d.plan.build env).run h).2 = (d.plan.drop.run h).2) := by
  have hObliging := Script.obliging hCalls hCount hMemory
  have hErrors : ∀ e, ((d.plan.build env).run h).1 = .error e ↔ d.Fails e := by
    intro e
    obtain ⟨log, os, -, -, hEnd⟩ := d.plan.build_cases env h
    rcases hEnd with ⟨g, _, _, hOk, -, hAssembled⟩ | ⟨e', hError, -, hReason⟩
    · rw [hOk]
      exact iff_of_false nofun (not_fails_of_assembled hAssembled e)
    · have hFails := fails_of_objects (hReason.resolve_right (not_not_intro hObliging))
      rw [hError]
      constructor
      · rintro ⟨⟩
        exact hFails
      · intro he
        rw [he.unique hFails]
  refine ⟨?_, hErrors, fun hDepth => ?_⟩
  · rw [exists_eq_ok_iff, buildable_iff]
    exact forall_congr' fun e => not_congr (hErrors e)
  · rw [Plan.run_build, assemble_depthOutput hDepth]

end Draft

/-! ## A frame of two passes

The second pass samples what the first one draws. -/

namespace TwoPasses

def draft : Draft where
  passes :=
    [{ name := "Scene"
       colors := [.of ⟨"scene"⟩ .discard]
       pipeline := some ⟨⟨1, some ⟨1⟩, some ⟨2⟩, [], none⟩, []⟩ },
      { name := "Post", inputs := [{ name := ⟨"scene"⟩ }], colors := [.of ⟨"final"⟩ .discard] }]
  output := ⟨"final"⟩

def environment : Environment where
  memory := ⟨[.deviceLocal], 1⟩
  surface := ⟨⟨44⟩, ⟨126⟩, ⟨800, 600⟩⟩
  namesObjects := false

/-- The device has made the two modules of the shader and refuses nothing. -/
def host : Host where
  device :=
    { script :=
        { refusal := fun _ _ => none
          needs := fun _ => Script.ordinaryNeeds
          leavesPipelines := false }
      issued := 2 }
  owners := [1]

theorem builds : ∃ g h, (draft.plan.build environment).run host = (.ok g, h) ∧
    g.images.values.map Image.handle = [⟨3⟩, ⟨6⟩] := by
  have hImages : ((draft.plan.build environment).run host).1.toOption.map
      (fun g => g.images.values.map Image.handle) = some [⟨3⟩, ⟨6⟩] := by cbv
  generalize (draft.plan.build environment).run host = built at hImages
  rcases built with ⟨_ | g, h⟩
  · cases hImages
  · exact ⟨g, h, rfl, Option.some.inj hImages⟩

theorem buildable : draft.Buildable := by
  have hNoDepth : ∀ n, ¬ draft.DrawsDepth n := by
    rintro n ⟨-, p, hp, t, ht, -⟩
    simp only [draft, List.mem_cons, List.not_mem_nil, or_false] at hp
    rcases hp with rfl | rfl <;> cases ht
  constructor
  · exact hNoDepth _
  · exact fun n hBoth => hNoDepth n hBoth.2
  · intro p hp _
    simp only [draft, List.mem_cons, List.not_mem_nil, or_false] at hp
    rcases hp with rfl | rfl
    · exact .inl ⟨_, List.mem_cons_self, by decide⟩
    · exact .inl ⟨_, List.mem_cons_self, by decide⟩
  · intro p hp choice hChoice
    simp only [draft, List.mem_cons, List.not_mem_nil, or_false] at hp
    rcases hp with rfl | rfl
    · obtain rfl := Option.some.inj hChoice
      exact ⟨_, rfl⟩
    · cases hChoice

/-- Two names have two roles each. The one that comes first in the passes is the greater one. -/
def clash : Draft where
  passes :=
    [{ name := "First", colors := [.of ⟨"z"⟩ .discard], depth := some (.of ⟨"z"⟩ .discard) },
      { name := "Second", colors := [.of ⟨"b"⟩ .discard], depth := some (.of ⟨"b"⟩ .discard) }]
  output := ⟨"final"⟩

theorem clash_fails : clash.Fails (.conflictingRoles ⟨"b"⟩) := by
  have hNames : ∀ n, clash.DrawsDepth n → n = ⟨"z"⟩ ∨ n = ⟨"b"⟩ := by
    rintro n ⟨-, p, hp, t, ht, rfl⟩
    simp only [clash, List.mem_cons, List.not_mem_nil, or_false] at hp
    rcases hp with rfl | rfl
    · cases ht
      exact .inl rfl
    · cases ht
      exact .inr rfl
  have hLast : clash.passes[1] ∈ clash.passes := List.mem_cons_of_mem _ List.mem_cons_self
  refine .roles (.conflict ?_ ⟨"b"⟩ ⟨by decide, _, hLast, _, List.mem_cons_self, rfl⟩
    ⟨by decide, _, hLast, _, rfl, rfl⟩ ?_)
  · intro hDepth
    rcases hNames _ hDepth with hName | hName
    · exact absurd hName (by decide)
    · exact absurd hName (by decide)
  · intro k _ hDepth
    rw [← Name.lt_iff_bytes_lt]
    rcases hNames k hDepth with rfl | rfl
    · decide
    · decide

theorem build_outcomes : (∃ g, ((draft.plan.build environment).run host).1 = .ok g) ∧
    ((clash.plan.build environment).run host).1 = .error (.conflictingRoles ⟨"b"⟩) := by
  have hFits : environment.memory.fits Script.ordinaryNeeds.typeBits .deviceLocal 0 = true := by
    decide
  have hDraft := draft.build_outcome environment host (fun _ _ => rfl) (by decide)
    fun _ => ⟨0, by decide, hFits⟩
  have hClash := clash.build_outcome environment host (fun _ _ => rfl) (by decide)
    fun _ => ⟨0, by decide, hFits⟩
  exact ⟨hDraft.1.mpr buildable, (hClash.2.1 _).mpr clash_fails⟩

end TwoPasses

end FrameGraph
