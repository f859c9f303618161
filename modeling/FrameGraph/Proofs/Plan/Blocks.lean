import FrameGraph.Proofs.Graph.Blocks
import FrameGraph.Proofs.Pass.Agreement
import FrameGraph.Proofs.Plan.Coverage
import FrameGraph.Proofs.Plan.Resolution

/-! # What the passes of a draft record

Every pass has a block of its own. What is in it follows from the declaration of the pass, from
the objects that were made for the pass, and from the states in which the passes before it leave
its inputs.
-/

namespace FrameGraph

set_option autoImplicit false

open Command Host

/-! ## Barriers -/

namespace StateMap

/-- The uses that need a barrier: one for every name that is sampled and not ready for it. -/
structure Awaits (s : StateMap) (inputs pending : List Use) : Prop where
  distinct : (pending.map Use.name).Nodup
  names : ∀ n, n ∈ pending.map Use.name ↔
    n ≠ .placeholder ∧ (∃ u ∈ inputs, u.name = n) ∧ s.stateOf n ≠ .shaderRead
  initial : ∀ u ∈ pending, u.initial = s.stateOf u.name

variable {s next : StateMap} {u : Use} {inputs pending : List Use}

/-- An input that is a placeholder or was sampled last needs no barrier, and changes no state. -/
theorem Awaits.skip (h : next.Awaits inputs pending)
    (hSame : ∀ n, next.stateOf n = s.stateOf n)
    (hReady : u.name = .placeholder ∨ s.stateOf u.name = .shaderRead) :
    s.Awaits (u :: inputs) pending where
  distinct := h.distinct
  names n := by
    rw [h.names, hSame, List.exists_mem_cons_iff]
    refine and_congr_right fun hName => and_congr_left fun hState => (or_iff_right ?_).symm
    rintro rfl
    rcases hReady with hPlaceholder | hRead
    · exact hName hPlaceholder
    · exact hState hRead
  initial v hv := (h.initial v hv).trans (hSame v.name)

/-- After the barrier for a name none is needed for it. -/
theorem Awaits.cons (h : next.Awaits inputs pending) (hLive : u.name ≠ .placeholder)
    (hState : s.stateOf u.name ≠ .shaderRead)
    (hNext : ∀ n, next.stateOf n = if n = u.name then .shaderRead else s.stateOf n) :
    s.Awaits (u :: inputs) ({ u with initial := s.stateOf u.name } :: pending) := by
  have hOther : ∀ n ∈ pending.map Use.name, n ≠ u.name := by
    rintro n hn rfl
    exact ((h.names _).mp hn).2.2 (by rw [hNext, if_pos rfl])
  constructor
  · exact List.nodup_cons.mpr ⟨fun hMem => hOther _ hMem rfl, h.distinct⟩
  · intro n
    rw [List.map_cons, List.mem_cons, List.exists_mem_cons_iff]
    by_cases hn : n = u.name
    · rw [hn]
      simp [hLive, hState]
    · have hNames := h.names n
      rw [hNext, if_neg hn] at hNames
      rw [or_iff_right hn, hNames, or_iff_right (Ne.symm hn)]
  · refine List.forall_mem_cons.mpr ⟨rfl, fun v hv => ?_⟩
    rw [h.initial v hv, hNext, if_neg (hOther v.name (List.mem_map_of_mem hv))]

theorem awaits_stampUses (s : StateMap) (inputs : List Use) :
    s.Awaits inputs (((s.stampUses .shaderRead inputs).filter Use.isLive).filter
      fun u => u.initial ≠ .shaderRead) := by
  -- The first use of a name leaves it ready for all later ones.
  induction inputs generalizing s with
  | nil => exact ⟨.nil, by simp [stampUses], List.forall_mem_nil _⟩
  | cons u inputs ih =>
    rw [stampUses]
    by_cases hLive : u.isLive = true
    · have hStamp : s.stamp u = { u with initial := s.stateOf u.name } := if_pos hLive
      have hName : u.name.isPlaceholder = false := by simpa [Use.isLive] using hLive
      have hNext := fun n => s.stateOf_step (u.name, .shaderRead) n hName
      rw [hStamp, List.filter_cons_of_pos (by simpa [Use.isLive] using hLive)]
      by_cases hRead : s.stateOf u.name = .shaderRead
      · rw [List.filter_cons_of_neg (by simp [hRead])]
        refine (ih _).skip (fun n => ?_) (.inr hRead)
        rw [hNext]
        by_cases hn : n = u.name
        · rw [if_pos hn, hn, hRead]
        · rw [if_neg hn]
      · rw [List.filter_cons_of_pos (by simpa using hRead)]
        exact (ih _).cons (Use.isLive_iff.mp hLive) hRead hNext
    · have hName : u.name = .placeholder := by simpa [Use.isLive_iff] using hLive
      have hStamp : s.stamp u = u := if_neg hLive
      rw [hStamp, List.filter_cons_of_neg hLive, step_of_not_live hLive]
      exact (ih s).skip (fun _ => rfl) (.inl hName)

end StateMap

/-- The barrier that makes the image of the name ready to be sampled, wherever it is found. -/
def ImageMap.Readies (images : ImageMap) (found : Name → ImageState) (n : Name)
    (info : BarrierInfo) : Prop :=
  ∃ i, images.get? n = some i ∧ .barrier info = i.transition (found n) .shaderRead

theorem Node.barriers_ready {images : ImageMap} {found : Name → ImageState} {pending : List Use}
    (hFound : ∀ u ∈ pending, ∃ i, images.get? u.name = some i)
    (hInitial : ∀ u ∈ pending, u.initial = found u.name) :
    List.Forall₂ (images.Readies found) (pending.map Use.name)
      ((pending.filterMap fun u =>
        (images.get? u.name).map fun i => i.transition u.initial .shaderRead).filterMap
          Command.barrier?) := by
  induction pending with
  | nil => exact .nil
  | cons u pending ih =>
    obtain ⟨⟨i, hImage⟩, hFound⟩ := List.forall_mem_cons.mp hFound
    obtain ⟨hState, hInitial⟩ := List.forall_mem_cons.mp hInitial
    rw [List.filterMap_cons_some (by rw [hImage]; rfl), List.map_cons]
    exact .cons ⟨i, hImage, congrArg (i.transition · .shaderRead) hState⟩ (ih hFound hInitial)

/-! ## Passes -/

/-- What a pass records, with its objects and with the states in which it finds the images. -/
structure Pass.Records (p : Pass) (images : ImageMap) (found : Name → ImageState)
    (o : PassObjects) (b : Block) : Prop where
  barriers : ∃ names : List Name, names.Nodup ∧
    (∀ n, n ∈ names ↔ n ≠ .placeholder ∧ (∃ u ∈ p.inputs, u.name = n) ∧ found n ≠ .shaderRead) ∧
    List.Forall₂ (images.Readies found) names b.barriers
  rendering : b.rendering = o.rendering
  renders : (∃ r, b.rendering = some r) ↔ p.HasTarget
  binds : (∃ r pipeline, b.rendering = some r ∧ r.pipeline = some pipeline) ↔ p.pipeline ≠ none
  shown : b.shown = p.hook.map fun k => k.shown o

namespace Declaration

end Declaration

namespace Pass

theorem getElem?_resolveAll (s : StateMap) (passes : List Pass) (k : Nat) :
    (resolveAll s passes)[k]? = passes[k]?.map (resolve (leavesAll s (passes.take k))) := by
  induction passes generalizing s k with
  | nil => rfl
  | cons p passes ih =>
    cases k with
    | zero => rfl
    | succ k => exact ih (p.leaves s) k

variable {p : Pass} {images : ImageMap} {o : PassObjects} {log : List Call}

theorem Compiled.renders (h : p.Compiled images o log) :
    (∃ r, o.rendering = some r) ↔ p.HasTarget := by
  cases h with
  | bare t hTargets hLayout hEmpty =>
    exact iff_of_false nofun ((bindTargets_eq_ok.mp hTargets).isEmpty_iff.mp hEmpty)
  | plain t hTargets hLayout hEmpty | drawing t hTargets _ _ _ _ hEmpty =>
    exact iff_of_true ⟨_, rfl⟩ (hasTarget_of_binds hTargets hEmpty)

theorem Compiled.bindsPipeline (h : p.Compiled images o log) :
    (∃ r pipeline, o.rendering = some r ∧ r.pipeline = some pipeline) ↔ p.pipeline ≠ none := by
  cases h with
  | bare t _ hLayout => exact iff_of_false nofun (not_not.mpr (pipeline_eq_none hLayout))
  | plain t _ hLayout =>
    refine iff_of_false ?_ (not_not.mpr (pipeline_eq_none hLayout))
    rintro ⟨_, _, ⟨⟩, ⟨⟩⟩
  | drawing t _ choice hChoice =>
    exact iff_of_true ⟨_, _, rfl, rfl⟩ (by simp [hChoice])

/-- A compiled pass whose inputs were stamped records what the pass says. -/
theorem Compiled.records {s : StateMap} (h : (p.resolve s).Compiled images o log) :
    p.Records images s.stateOf o ((Node.ofPass (p.resolve s) o).block images) := by
  obtain ⟨t, hBinds⟩ := h.binds
  have hAwaits := s.awaits_stampUses p.inputs
  constructor
  · refine ⟨_, hAwaits.distinct, hAwaits.names, Node.barriers_ready (fun u hu => ?_)
      hAwaits.initial⟩
    exact hBinds.inputs u (List.mem_of_mem_filter hu)
  · rfl
  · exact h.renders.trans hasTarget_resolve
  · exact h.bindsPipeline
  · rfl

end Pass

/-! ## Drafts -/

theorem Plan.Compiles.getElem? {images : ImageMap} {passes : List Pass} {nodes : List Node}
    {log : List Call} (h : Compiles images passes nodes log) {k : Nat} {p : Pass}
    (hp : passes[k]? = some p) :
    ∃ o made, nodes[k]? = some (.ofPass p o) ∧ p.Compiled images o made ∧ made <:+: log := by
  induction h generalizing k with
  | nil => cases hp
  | @cons _ o first next _ _ hPass hRest ih =>
    cases k with
    | zero =>
      cases hp
      exact ⟨o, first, rfl, hPass, (List.prefix_append first next).isInfix⟩
    | succ k =>
      obtain ⟨o', made, hNode, hCompiled, hMade⟩ := ih hp
      exact ⟨o', made, hNode, hCompiled, hMade.trans (List.suffix_append first next).isInfix⟩

theorem Plan.Compiles.length_eq {images : ImageMap} {passes : List Pass} {nodes : List Node}
    {log : List Call} (h : Compiles images passes nodes log) : nodes.length = passes.length := by
  induction h with
  | nil => rfl
  | cons _ _ ih => rw [List.length_cons, List.length_cons, ih]

namespace Draft

end Draft

namespace TwoPasses

end TwoPasses

end FrameGraph
