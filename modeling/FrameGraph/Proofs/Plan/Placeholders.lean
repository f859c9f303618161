import FrameGraph.Proofs.Graph.Notices
import FrameGraph.Proofs.Pass.Check
import FrameGraph.Proofs.Plan.Usage

/-! # Placeholders are transparent

A draft may be freed of its placeholders. Its plan is then the earlier one freed of them, and it is
built and used with the same calls and to the same end.
-/

namespace FrameGraph

set_option autoImplicit false

open Host

/-! ## Freeing passes of placeholders -/

namespace Pass

/-- The pass without its placeholders. -/
def live (p : Pass) : Pass :=
  { p with inputs := p.liveInputs, colors := p.liveColors, depth := p.liveDepth }

def isLiveUse (use : Name × ImageState) : Bool := !use.1.isPlaceholder

theorem uses_live (p : Pass) : p.live.uses = p.uses.filter isLiveUse := by
  simp only [uses, live, liveInputs, liveColors, liveDepth, List.filter_append, List.filter_map,
    Option.toList_filter]
  rfl

@[simp] theorem liveInputs_live (p : Pass) : p.live.liveInputs = p.liveInputs := by
  simp [liveInputs, live]

@[simp] theorem liveColors_live (p : Pass) : p.live.liveColors = p.liveColors := by
  simp [liveColors, live]

@[simp] theorem liveDepth_live (p : Pass) : p.live.liveDepth = p.liveDepth := by
  simp [liveDepth, live, Option.filter_filter]

end Pass

/-- The draft without the placeholders of its passes. -/
def Draft.live (d : Draft) : Draft := { d with passes := d.passes.map Pass.live }

/-! ## Planning -/

namespace StateMap

/-- Placeholders leave no trace in the states. -/
theorem steps_filter (s : StateMap) (uses : List (Name × ImageState)) :
    s.steps (uses.filter Pass.isLiveUse) = s.steps uses := by
  induction uses generalizing s with
  | nil => rfl
  | cons use uses ih =>
    by_cases hPlaceholder : use.1.isPlaceholder = true
    · have hStep : s.step use = s := if_pos hPlaceholder
      rw [List.filter_cons_of_neg (by simp [Pass.isLiveUse, hPlaceholder]), ih]
      exact (congrArg (fun s => s.steps uses) hStep).symm
    · rw [List.filter_cons_of_pos (by simpa [Pass.isLiveUse] using hPlaceholder)]
      exact ih (s.step use)

@[simp] theorem stamp_isLive (s : StateMap) (u : Use) : (s.stamp u).isLive = u.isLive := by
  rw [Use.isLive, stamp_name, Use.isLive]

theorem step_of_not_live {s : StateMap} {u : Use} (h : ¬ u.isLive = true) (role : ImageState) :
    s.step (u.name, role) = s := if_pos (by simpa [Use.isLive] using h)

theorem stampUses_filter (role : ImageState) (s : StateMap) (us : List Use) :
    s.stampUses role (us.filter Use.isLive) = (s.stampUses role us).filter Use.isLive := by
  induction us generalizing s with
  | nil => rfl
  | cons u us ih =>
    by_cases hLive : u.isLive = true
    · rw [List.filter_cons_of_pos hLive, stampUses, stampUses,
        List.filter_cons_of_pos (by simpa using hLive), ih]
    · rw [List.filter_cons_of_neg hLive, stampUses,
        List.filter_cons_of_neg (by simpa using hLive), step_of_not_live hLive, ih]

theorem stampTargets_filter {α : Type} (role : ImageState) (s : StateMap) (ts : List (Target α)) :
    s.stampTargets role (ts.filter fun t => t.isLive) =
      (s.stampTargets role ts).filter fun t => t.isLive := by
  induction ts generalizing s with
  | nil => rfl
  | cons t ts ih =>
    by_cases hLive : t.isLive = true
    · rw [List.filter_cons_of_pos (by exact hLive), stampTargets, stampTargets,
        List.filter_cons_of_pos (by simpa using hLive), ih]
    · rw [List.filter_cons_of_neg (by exact hLive), stampTargets,
        List.filter_cons_of_neg (by simpa using hLive), step_of_not_live hLive, ih]

end StateMap

namespace Pass

theorem leaves_live (s : StateMap) (p : Pass) : p.live.leaves s = p.leaves s := by
  rw [leaves, uses_live, StateMap.steps_filter, leaves]

theorem resolve_live (s : StateMap) (p : Pass) : p.live.resolve s = (p.resolve s).live := by
  have hInputs : s.steps (p.liveInputs.map fun u => (u.name, .shaderRead)) =
      s.steps (p.inputs.map fun u => (u.name, .shaderRead)) := by
    rw [← StateMap.steps_filter s (p.inputs.map _), List.filter_map]
    rfl
  have hColors : ∀ s : StateMap, s.steps (p.liveColors.map fun t => (t.name, .colorTarget)) =
      s.steps (p.colors.map fun t => (t.name, .colorTarget)) := by
    intro s
    rw [← StateMap.steps_filter s (p.colors.map _), List.filter_map]
    rfl
  have hDepth : ∀ s : StateMap, p.liveDepth.map (fun t => { t with toUse := s.stamp t.toUse }) =
      (p.depth.map fun t => { t with toUse := s.stamp t.toUse }).filter fun t => t.isLive := by
    intro s
    rw [liveDepth]
    cases p.depth with
    | none => rfl
    | some t => simp [Option.filter]
  simp only [resolve, live, hInputs, hColors, hDepth]
  rw [liveInputs, StateMap.stampUses_filter, liveColors, StateMap.stampTargets_filter]
  rfl

theorem resolveAll_live (s : StateMap) (passes : List Pass) :
    resolveAll s (passes.map live) = (resolveAll s passes).map live := by
  induction passes generalizing s with
  | nil => rfl
  | cons p passes ih =>
    rw [List.map_cons, resolveAll, resolve_live, leaves_live, ih, resolveAll, List.map_cons]

theorem leavesAll_live (s : StateMap) (passes : List Pass) :
    leavesAll s (passes.map live) = leavesAll s passes := by
  induction passes generalizing s with
  | nil => rfl
  | cons p passes ih =>
    have hFirst : leavesAll (p.live.leaves s) (passes.map live) =
        leavesAll (p.leaves s) (passes.map live) := by rw [leaves_live]
    exact hFirst.trans (ih (p.leaves s))

end Pass

namespace UsageMap

/-- Only the usage of the placeholder changes when its uses are left out. -/
theorem get?_addAll_filter {n : Name} (hName : n ≠ .placeholder) {m m' : UsageMap}
    (hSame : m.get? n = m'.get? n) (uses : List (Name × ImageState)) :
    NameMap.get? ((uses.filter Pass.isLiveUse).foldl add m) n =
      NameMap.get? (uses.foldl add m') n := by
  induction uses generalizing m m' with
  | nil => exact hSame
  | cons use uses ih =>
    rw [List.foldl_cons]
    by_cases hPlaceholder : use.1.isPlaceholder = true
    · rw [List.filter_cons_of_neg (by simp [Pass.isLiveUse, hPlaceholder])]
      refine ih ?_
      rw [get?_add, if_neg]
      · exact hSame
      · rw [Name.isPlaceholder_iff.mp hPlaceholder]
        exact hName
    · rw [List.filter_cons_of_pos (by simpa [Pass.isLiveUse] using hPlaceholder),
        List.foldl_cons]
      refine ih ?_
      rw [get?_add, get?_add]
      by_cases hn : n = use.1
      · rw [if_pos hn, if_pos hn, ← hn, hSame]
      · rw [if_neg hn, if_neg hn, hSame]

theorem ofPasses_live (passes : List Pass) (output : Name) :
    ofPasses (passes.map Pass.live) output = ofPasses passes output := by
  have hUses : (passes.map Pass.live).flatMap Pass.uses =
      (passes.flatMap Pass.uses).filter Pass.isLiveUse := by
    rw [List.flatMap_map, List.filter_flatMap]
    exact congrArg (passes.flatMap ·) (funext Pass.uses_live)
  refine NameMap.ext_get? fun n => ?_
  rw [ofPasses, ofPasses, NameMap.get?_erase, NameMap.get?_erase, hUses]
  by_cases hName : n = .placeholder
  · rw [if_pos hName, if_pos hName]
  · rw [if_neg hName, if_neg hName, get?_add, get?_add]
    by_cases hOutput : n = output
    · rw [if_pos hOutput, if_pos hOutput, ← hOutput, get?_addAll_filter hName rfl]
    · rw [if_neg hOutput, if_neg hOutput, get?_addAll_filter hName rfl]

end UsageMap

/-! ## Building -/

namespace Pass

theorem bindTargets_live (p : Pass) (images : ImageMap) :
    p.live.bindTargets images = p.bindTargets images := by
  rw [bindTargets, liveColors_live, liveDepth_live, liveInputs_live]
  rfl

theorem compile_live (p : Pass) (images : ImageMap) :
    p.live.compile images = p.compile images := by
  rw [compile, bindTargets_live]
  rfl

theorem ofPass_live (p : Pass) (o : PassObjects) : Node.ofPass p.live o = Node.ofPass p o := by
  rw [Node.ofPass, liveColors_live, liveInputs_live]
  rfl

end Pass

namespace Plan

theorem compileAll_live (images : ImageMap) (passes : List Pass) (nodes : List Node) :
    compileAll images (passes.map Pass.live) nodes = compileAll images passes nodes := by
  induction passes generalizing nodes with
  | nil => rfl
  | cons p passes ih =>
    rw [List.map_cons, compileAll, compileAll, Pass.compile_live]
    have hGiveUp : giveUp p.live nodes = giveUp p nodes := rfl
    rw [hGiveUp]
    congr 1
    funext o
    rw [Pass.ofPass_live, ih]

end Plan

namespace Draft

theorem plan_live (d : Draft) : d.live.plan.usages = d.plan.usages ∧
    d.live.plan.outputState = d.plan.outputState ∧
    d.live.plan.passes = d.plan.passes.map Pass.live :=
  ⟨UsageMap.ofPasses_live d.passes d.output,
    congrArg (fun s => StateMap.stateOf s d.output) (Pass.leavesAll_live {} d.passes),
    Pass.resolveAll_live {} d.passes⟩

/-- The plans are built in the same way, down to what is reported. -/
theorem build_plan_live (d : Draft) (env : Environment) :
    d.live.plan.build env = d.plan.build env := by
  obtain ⟨hUsages, hState, hPasses⟩ := d.plan_live
  have hAssemble : d.live.plan.assemble env = d.plan.assemble env := by
    rw [Plan.assemble, hUsages, hState, hPasses]
    simp only [Plan.compileAll_live]
    rfl
  have hDrop : d.live.plan.drop = d.plan.drop := by
    rw [Plan.drop, hPasses]
    exact List.forM_map ..
  rw [Plan.build, hAssemble, hDrop, Plan.build]

end Draft

/-! ## Working with graphs -/

/-- Builds the plan, and works with the graph if there is one. -/
def Plan.session (env : Environment) (operations : List Operation) (p : Plan) :
    HostM (Except BuildError Graph × Pool) := do
  let result ← p.build env
  return (result, ← Pool.run [result.toOption] operations)

theorem Plan.heedless_session (env : Environment) (operations : List Operation) (p : Plan) :
    Heedless (p.session env operations) :=
  .bind (p.heedless_build env) fun _ => .bind (Pool.heedless_run _ operations) fun _ => .pure _

namespace Draft

def session (env : Environment) (operations : List Operation) (d : Draft) :
    HostM (Except BuildError Graph × Pool) := do
  let plan ← d.planWithReport
  plan.session env operations

theorem run_session (env : Environment) (operations : List Operation) (d : Draft) (h : Host) :
    (d.session env operations).run h =
      (d.plan.session env operations).run ((reportAll d.notices).run h).2 := rfl

/-- Placeholders are transparent. Without them the plan is the same but for the placeholders in its
passes, it is built in the same way, and whatever is then done with the graph, it comes to the same
and the device is sent the same calls. -/
theorem live_transparent (d : Draft) :
    d.live.plan.usages = d.plan.usages ∧ d.live.plan.outputState = d.plan.outputState ∧
      d.live.plan.passes = d.plan.passes.map Pass.live ∧
      (∀ env, d.live.plan.build env = d.plan.build env) ∧
      ∀ env operations h, ((d.live.session env operations).run h).1 =
          ((d.session env operations).run h).1 ∧
        ((d.live.session env operations).run h).2.device =
          ((d.session env operations).run h).2.device := by
  obtain ⟨hUsages, hState, hPasses⟩ := d.plan_live
  refine ⟨hUsages, hState, hPasses, d.build_plan_live, fun env operations h => ?_⟩
  have hPlans : d.live.plan.session env operations = d.plan.session env operations := by
    rw [Plan.session, d.build_plan_live, Plan.session]
  -- All that is left of the placeholders is what is reported of them.
  have hAlike := (alike_reportAll d.live.notices h).symm.trans (alike_reportAll d.notices h)
  obtain ⟨hSame, hLeft⟩ := d.plan.heedless_session env operations hAlike
  rw [run_session, run_session, hPlans]
  exact ⟨hSame, hLeft.device⟩

end Draft

end FrameGraph
