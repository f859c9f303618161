import FrameGraph.Proofs.Interface.Retention
import FrameGraph.Proofs.Interface.Union
import FrameGraph.Proofs.Shader.Creation

/-! # What stands in the way of a shader

A shader needs a set layout and two modules. What is missing first is the error, and the modules
that were made until then are destroyed. A layout that was created stays in the cache all the same,
where it serves every later shader with the same uniforms.
-/

namespace FrameGraph

set_option autoImplicit false

open Host

namespace Shader

/-! ## The layout and the modules -/

/-- How creating a shader ends, what the cache is then, and the calls. -/
inductive Tried (c : LayoutCache) (d : Device) (vertex fragment : ShaderSource) :
    Except ShaderError Shader → LayoutCache → List Call → Prop
  | noLayout {e : ShaderError} {log : List Call}
      (hServed : c.Served (interface vertex fragment) d (.error e) log) :
      Tried c d vertex fragment (.error e) c log
  | noModules {layout : Handle .setLayout} {later : LayoutCache} {log : List Call}
      {e : ShaderError} {rest : List Call}
      (hServed : c.Served (interface vertex fragment) d (.ok (layout, later)) log)
      (hModules : ModulesTried d vertex fragment (.error e) rest) :
      Tried c d vertex fragment (.error e) later (log ++ rest)
  | created {layout : Handle .setLayout} {later : LayoutCache} {log : List Call} (key : Nat)
      {first second : Handle .shaderModule} {rest : List Call}
      (hServed : c.Served (interface vertex fragment) d (.ok (layout, later)) log)
      (hModules : ModulesTried d vertex fragment (.ok (first, second)) rest) :
      Tried c d vertex fragment
        (.ok ⟨key, some first, some second, vertex.attributes, some layout⟩) later (log ++ rest)

theorem ModulesTried.congr {d d' : Device} {vertex fragment : ShaderSource}
    {result : Except ShaderError (Handle .shaderModule × Handle .shaderModule)} {log : List Call}
    (hSame : ∀ times, d.answerAfter times (.create .shaderModule) =
      d'.answerAfter times (.create .shaderModule))
    (h : ModulesTried d vertex fragment result log) :
    ModulesTried d' vertex fragment result log := by
  have hFirst : d.answer (.create .shaderModule) = d'.answer (.create .shaderModule) := hSame 0
  cases h with
  | noVertexCode hVertex => exact .noVertexCode hVertex
  | vertexRefused code hVertex hAnswer => exact .vertexRefused code hVertex (hFirst ▸ hAnswer)
  | noFragmentCode first hVertex hAnswer hFragment =>
    exact .noFragmentCode first hVertex (hFirst ▸ hAnswer) hFragment
  | fragmentRefused first code hVertex hAnswer hFragment hNext =>
    exact .fragmentRefused first code hVertex (hFirst ▸ hAnswer) hFragment (hSame 1 ▸ hNext)
  | made first second hVertex hAnswer hFragment hNext =>
    exact .made first second hVertex (hFirst ▸ hAnswer) hFragment (hSame 1 ▸ hNext)

theorem create_tried (c : LayoutCache) (vertex fragment : ShaderSource) (h : Host) :
    ∃ result later h' log, (create c vertex fragment).run h = ((result, later), h') ∧
      Sent h h' log ∧ Tried c h.device vertex fragment result later log := by
  obtain ⟨log, hSent, hServed⟩ := c.served (interface vertex fragment) h
  have hCounted := (c.confined_layoutFor (interface vertex fragment)).counts h
  rcases hRun : (c.layoutFor (interface vertex fragment)).run.run h with
    ⟨e | ⟨layout, later⟩, h₁⟩
  · rw [hRun] at hSent hServed
    exact ⟨.error e, c, h₁, log, run_create_of_error hRun, hSent, .noLayout hServed⟩
  rw [hRun] at hSent hServed hCounted
  have hSame : ∀ times, h₁.device.answerAfter times (.create .shaderModule) =
      h.device.answerAfter times (.create .shaderModule) := by
    intro times
    rw [hSent.answerAfter hCounted, hServed.requests_modules, Nat.zero_add]
  rw [run_create c later vertex fragment hRun]
  rcases (ends_createModules vertex fragment h₁).cases with
    ⟨⟨first, second⟩, h₂, rest, hRun₂, hSent₂, hTried⟩ | ⟨e, h₂, rest, hRun₂, hSent₂, hTried⟩
  · rw [hRun₂]
    have hRegister : Sent h₂ (register.run h₂).2 [] := .of_device_eq rfl
    have hAll := (hSent.trans hSent₂).trans hRegister
    rw [List.append_nil] at hAll
    exact ⟨_, later, _, log ++ rest, rfl, hAll, .created _ hServed (hTried.congr hSame)⟩
  · rw [hRun₂]
    exact ⟨_, later, h₂, log ++ rest, rfl, hSent.trans hSent₂,
      .noModules hServed (hTried.congr hSame)⟩

/-! ## Hindrances -/

/-- Something that stands in the way of the shader, with its place in the order in which that
is found out. -/
inductive Hinders (c : LayoutCache) (d : Device) (vertex fragment : ShaderSource) :
    Nat → ShaderError → Prop
  | conflict {u : Uniform}
      (h : StageUniforms.FirstClash (StageUniforms.flatten (interface vertex fragment)) u) :
      Hinders c d vertex fragment 0 (.conflictingBinding u.binding)
  | layout {code : ResultCode} (hCaches : ¬ c.Caches (interface vertex fragment))
      (hAnswer : d.answer (.create .setLayout) = some code) :
      Hinders c d vertex fragment 1 (.refused code)
  | vertexCode (h : vertex.words = []) : Hinders c d vertex fragment 2 (.emptyCode .vertex)
  | vertexModule {code : ResultCode} (h : d.answer (.create .shaderModule) = some code) :
      Hinders c d vertex fragment 3 (.refused code)
  | fragmentCode (h : fragment.words = []) : Hinders c d vertex fragment 4 (.emptyCode .fragment)
  | fragmentModule {code : ResultCode}
      (h : d.answerAfter 1 (.create .shaderModule) = some code) :
      Hinders c d vertex fragment 5 (.refused code)

section Hindrances

variable {c : LayoutCache} {d : Device} {vertex fragment : ShaderSource}

variable (c d vertex fragment) in
/-- Nothing is in the way before the place. -/
def Reaches (place : Nat) : Prop :=
  ∀ earlier < place, ∀ e, ¬ Hinders c d vertex fragment earlier e

theorem Hinders.unique {place : Nat} {e f : ShaderError} (he : Hinders c d vertex fragment place e)
    (hf : Hinders c d vertex fragment place f) : e = f := by
  cases he with
  | conflict he =>
    cases hf with
    | conflict hf =>
      have hFirst := StageUniforms.merge_eq_error.mpr ⟨_, he, rfl⟩
      exact Except.error.inj (hFirst.symm.trans (StageUniforms.merge_eq_error.mpr ⟨_, hf, rfl⟩))
  | layout _ he => cases hf with | layout _ hf => cases he.symm.trans hf; rfl
  | vertexCode => cases hf; rfl
  | vertexModule he => cases hf with | vertexModule hf => cases he.symm.trans hf; rfl
  | fragmentCode => cases hf; rfl
  | fragmentModule he => cases hf with | fragmentModule hf => cases he.symm.trans hf; rfl

theorem Reaches.succ {place : Nat} (h : Reaches c d vertex fragment place)
    (hNone : ∀ e, ¬ Hinders c d vertex fragment place e) :
    Reaches c d vertex fragment (place + 1) := by
  intro earlier hEarlier
  rcases Nat.lt_succ_iff_lt_or_eq.mp hEarlier with hLess | rfl
  · exact h earlier hLess
  · exact hNone

theorem reaches_start : Reaches c d vertex fragment 0 :=
  fun _ hEarlier => absurd hEarlier (Nat.not_lt_zero _)

theorem reaches_layout {slots : List ResourceSlot}
    (hMerge : StageUniforms.merge (interface vertex fragment) = .ok slots) :
    Reaches c d vertex fragment 1 := by
  refine reaches_start.succ fun e hHinders => ?_
  cases hHinders with
  | conflict hClash =>
    have hError := StageUniforms.merge_eq_error.mpr ⟨_, hClash, rfl⟩
    cases hMerge.symm.trans hError

theorem reaches_modules {later : LayoutCache} {layout : Handle .setLayout} {log : List Call}
    (hServed : c.Served (interface vertex fragment) d (.ok (layout, later)) log) :
    Reaches c d vertex fragment 2 := by
  cases hServed with
  | found hMerge hFind =>
    refine (reaches_layout hMerge).succ fun e hHinders => ?_
    cases hHinders with
    | layout hCaches => exact hCaches ⟨_, _, hMerge, hFind⟩
  | created hMerge hFind hAnswer =>
    refine (reaches_layout hMerge).succ fun e hHinders => ?_
    cases hHinders with
    | layout _ hRefused => cases hAnswer.symm.trans hRefused

theorem Reaches.vertexCode (h : Reaches c d vertex fragment 2) (hWords : vertex.words ≠ []) :
    Reaches c d vertex fragment 3 :=
  h.succ fun _ hHinders => by cases hHinders with | vertexCode hNone => exact hWords hNone

theorem Reaches.vertexModule (h : Reaches c d vertex fragment 3)
    (hAnswer : d.answer (.create .shaderModule) = none) : Reaches c d vertex fragment 4 :=
  h.succ fun _ hHinders => by
    cases hHinders with | vertexModule hRefused => cases hAnswer.symm.trans hRefused

theorem Reaches.fragmentCode (h : Reaches c d vertex fragment 4) (hWords : fragment.words ≠ []) :
    Reaches c d vertex fragment 5 :=
  h.succ fun _ hHinders => by cases hHinders with | fragmentCode hNone => exact hWords hNone

theorem Reaches.fragmentModule (h : Reaches c d vertex fragment 5)
    (hAnswer : d.answerAfter 1 (.create .shaderModule) = none) : Reaches c d vertex fragment 6 :=
  h.succ fun _ hHinders => by
    cases hHinders with | fragmentModule hRefused => cases hAnswer.symm.trans hRefused

variable (c d vertex fragment) in
def FirstHinders (e : ShaderError) : Prop :=
  ∃ place, Hinders c d vertex fragment place e ∧ Reaches c d vertex fragment place

theorem FirstHinders.unique {e f : ShaderError} (he : FirstHinders c d vertex fragment e)
    (hf : FirstHinders c d vertex fragment f) : e = f := by
  obtain ⟨place, he, hReaches⟩ := he
  obtain ⟨other, hf, hReaches'⟩ := hf
  rcases Nat.lt_trichotomy place other with hLess | rfl | hMore
  · exact absurd he (hReaches' place hLess e)
  · exact he.unique hf
  · exact absurd hf (hReaches other hMore f)

/-- Nothing stands in the way. -/
theorem reaches_end : Reaches c d vertex fragment 6 ↔
    ¬ StageUniforms.Clashing (interface vertex fragment) ∧
      (c.Caches (interface vertex fragment) ∨ d.answer (.create .setLayout) = none) ∧
      vertex.words ≠ [] ∧ d.answer (.create .shaderModule) = none ∧ fragment.words ≠ [] ∧
      d.answerAfter 1 (.create .shaderModule) = none := by
  constructor
  · intro h
    refine ⟨fun hClashing => ?_, ?_, fun hNone => ?_, ?_, fun hNone => ?_, ?_⟩
    · obtain ⟨e, hMerge⟩ := StageUniforms.merge_fails_iff.mpr hClashing
      obtain ⟨u, hClash, -⟩ := StageUniforms.merge_eq_error.mp hMerge
      exact h 0 (by decide) _ (.conflict hClash)
    · by_contra hNeither
      obtain ⟨hCaches, hRefused⟩ := not_or.mp hNeither
      obtain ⟨code, hAnswer⟩ := Option.ne_none_iff_exists'.mp hRefused
      exact h 1 (by decide) _ (.layout hCaches hAnswer)
    · exact h 2 (by decide) _ (.vertexCode hNone)
    · exact Option.eq_none_iff_forall_ne_some.mpr fun code hAnswer =>
        h 3 (by decide) _ (.vertexModule hAnswer)
    · exact h 4 (by decide) _ (.fragmentCode hNone)
    · exact Option.eq_none_iff_forall_ne_some.mpr fun code hAnswer =>
        h 5 (by decide) _ (.fragmentModule hAnswer)
  · rintro ⟨hClashing, hLayout, hVertex, hFirst, hFragment, hSecond⟩ place - e hHinders
    cases hHinders with
    | conflict hClash =>
      exact hClashing (StageUniforms.merge_fails_iff.mp
        ⟨_, StageUniforms.merge_eq_error.mpr ⟨_, hClash, rfl⟩⟩)
    | layout hCaches hAnswer =>
      rcases hLayout with hCached | hNone
      · exact hCaches hCached
      · cases hNone.symm.trans hAnswer
    | vertexCode hNone => exact hVertex hNone
    | vertexModule hRefused => cases hFirst.symm.trans hRefused
    | fragmentCode hNone => exact hFragment hNone
    | fragmentModule hRefused => cases hSecond.symm.trans hRefused

variable {result : Except ShaderError Shader} {later : LayoutCache} {log : List Call}

theorem Tried.firstHinders {e : ShaderError} (h : Tried c d vertex fragment (.error e) later log) :
    FirstHinders c d vertex fragment e := by
  cases h with
  | noLayout hServed =>
    cases hServed with
    | conflict hMerge =>
      obtain ⟨u, hClash, rfl⟩ := StageUniforms.merge_eq_error.mp hMerge
      exact ⟨0, .conflict hClash, reaches_start⟩
    | refused hMerge hFind hAnswer =>
      refine ⟨1, .layout ?_ hAnswer, reaches_layout hMerge⟩
      rintro ⟨slots, layout, hSame, hFound⟩
      cases hMerge.symm.trans hSame
      cases hFind.symm.trans hFound
  | noModules hServed hModules =>
    have hStart := reaches_modules hServed
    cases hModules with
    | noVertexCode hVertex => exact ⟨2, .vertexCode hVertex, hStart⟩
    | vertexRefused _ hVertex hAnswer =>
      exact ⟨3, .vertexModule hAnswer, hStart.vertexCode hVertex⟩
    | noFragmentCode _ hVertex hAnswer hFragment =>
      exact ⟨4, .fragmentCode hFragment, (hStart.vertexCode hVertex).vertexModule hAnswer⟩
    | fragmentRefused _ _ hVertex hAnswer hFragment hNext =>
      exact ⟨5, .fragmentModule hNext,
        ((hStart.vertexCode hVertex).vertexModule hAnswer).fragmentCode hFragment⟩

theorem Tried.reaches_end {s : Shader} (h : Tried c d vertex fragment (.ok s) later log) :
    Reaches c d vertex fragment 6 := by
  cases h with
  | created _ hServed hModules =>
    cases hModules with
    | made _ _ hVertex hAnswer hFragment hNext =>
      exact ((((reaches_modules hServed).vertexCode hVertex).vertexModule hAnswer).fragmentCode
        hFragment).fragmentModule hNext

theorem Hinders.place_lt {place : Nat} {e : ShaderError}
    (h : Hinders c d vertex fragment place e) : place < 6 := by
  cases h <;> decide

theorem Tried.not_firstHinders {s : Shader} (h : Tried c d vertex fragment (.ok s) later log)
    (e : ShaderError) : ¬ FirstHinders c d vertex fragment e := by
  rintro ⟨place, hHinders, -⟩
  exact h.reaches_end place hHinders.place_lt e hHinders

end Hindrances

/-! ## The outcome -/

/-- After whatever operations on the cache, a shader with the same uniforms needs no layout of
its own. -/
def Settles (c : LayoutCache) (vertex fragment : ShaderSource) : Prop :=
  ∀ operations h vertex' fragment', (∀ e, e ∈ StageUniforms.flatten (interface vertex fragment) ↔
      e ∈ StageUniforms.flatten (interface vertex' fragment')) →
    ∀ h', ∃ log,
      Sent h' ((create ((c.run operations).run h).1.2 vertex' fragment').run h').2 log ∧
        ∀ call ∈ log, call.SparesLayouts

/-- What creating a shader gives, what it leaves of the cache, and what it makes and destroys. -/
structure Settled (c : LayoutCache) (d : Device) (vertex fragment : ShaderSource)
    (result : Except ShaderError Shader) (later : LayoutCache) (log : List Call) : Prop where
  succeeds : (∃ s, result = .ok s) ↔
    ¬ StageUniforms.Clashing (interface vertex fragment) ∧
      (c.Caches (interface vertex fragment) ∨ d.answer (.create .setLayout) = none) ∧
      vertex.words ≠ [] ∧ d.answer (.create .shaderModule) = none ∧ fragment.words ≠ [] ∧
      d.answerAfter 1 (.create .shaderModule) = none
  fails : ∀ e, result = .error e ↔ FirstHinders c d vertex fragment e
  /-- The modules that were made are destroyed, once each, and nothing else is. -/
  undone : ∀ e, result = .error e →
    Log.destroyed log = Log.madeModules log ∧ (Log.made log).Nodup
  /-- The cache gains at most the layout of this shader. -/
  cache : later = c ∧ Log.setLayouts log = [] ∨ ∃ slots layout,
    StageUniforms.merge (interface vertex fragment) = .ok slots ∧ c.find? slots = none ∧
      Log.setLayouts log = [({ slots := slots }, layout)] ∧ later = c.add slots layout ∧
      Settles later vertex fragment
  holds : ∀ s, result = .ok s → Log.destroyed log = [] ∧ ∃ first second slots layout,
    s.vertexModule = some first ∧ s.fragmentModule = some second ∧
      Log.madeModules log = [first.object, second.object] ∧
      StageUniforms.merge (interface vertex fragment) = .ok slots ∧ s.setLayout = some layout ∧
      later.find? slots = some layout

section Outcome

variable {c later : LayoutCache} {d : Device} {vertex fragment : ShaderSource}
  {result : Except ShaderError Shader} {log : List Call}

theorem ModulesTried.spares
    {made : Except ShaderError (Handle .shaderModule × Handle .shaderModule)}
    (h : ModulesTried d vertex fragment made log) : ∀ call ∈ log, call.SparesLayouts := by
  cases h <;> simp [Call.SparesLayouts, moduleCall, CreateInfo.kind, Handle.object]

theorem Tried.spares (hCaches : c.Caches (interface vertex fragment))
    (h : Tried c d vertex fragment result later log) : ∀ call ∈ log, call.SparesLayouts := by
  cases h with
  | noLayout hServed =>
    rw [hServed.eq_nil hCaches]
    exact List.forall_mem_nil _
  | noModules hServed hModules | created _ hServed hModules =>
    rw [hServed.eq_nil hCaches]
    exact hModules.spares

theorem settles (hCaches : c.Caches (interface vertex fragment)) : Settles c vertex fragment := by
  intro operations h vertex' fragment' hSame h'
  have hLater : ((c.run operations).run h).1.2.Caches (interface vertex' fragment') := by
    obtain ⟨slots, layout, hMerge, hFind⟩ := LayoutCache.run_caches operations hCaches h
    exact ⟨slots, layout, StageUniforms.merge_eq_ok_of_same hSame hMerge, hFind⟩
  obtain ⟨result, last, h₁, log, hRun, hSent, hTried⟩ :=
    create_tried ((c.run operations).run h).1.2 vertex' fragment' h'
  rw [hRun]
  exact ⟨log, hSent, hTried.spares hLater⟩

theorem Tried.undone {e : ShaderError} (h : Tried c d vertex fragment (.error e) later log) :
    Log.destroyed log = Log.madeModules log := by
  cases h with
  | noLayout hServed => cases hServed <;> rfl
  | noModules hServed hModules => cases hServed <;> cases hModules <;> rfl

theorem Tried.cache (h : Tried c d vertex fragment result later log) :
    later = c ∧ Log.setLayouts log = [] ∨ ∃ slots layout,
      StageUniforms.merge (interface vertex fragment) = .ok slots ∧ c.find? slots = none ∧
        Log.setLayouts log = [({ slots := slots }, layout)] ∧ later = c.add slots layout := by
  cases h with
  | noLayout hServed =>
    cases hServed with
    | conflict | refused => exact .inl ⟨rfl, rfl⟩
  | noModules hServed hModules | created _ hServed hModules =>
    have hRest := Log.setLayouts_of_spares hModules.spares
    rw [Log.setLayouts_append, hRest, List.append_nil]
    cases hServed with
    | found => exact .inl ⟨rfl, rfl⟩
    | created hMerge hFind => exact .inr ⟨_, _, hMerge, hFind, rfl, rfl⟩

theorem Tried.holds {s : Shader} (h : Tried c d vertex fragment (.ok s) later log) :
    Log.destroyed log = [] ∧ ∃ first second slots layout,
      s.vertexModule = some first ∧ s.fragmentModule = some second ∧
        Log.madeModules log = [first.object, second.object] ∧
        StageUniforms.merge (interface vertex fragment) = .ok slots ∧ s.setLayout = some layout ∧
        later.find? slots = some layout := by
  cases h with
  | created _ hServed hModules =>
    cases hModules with
    | made =>
      cases hServed with
      | found hMerge hFind =>
        exact ⟨rfl, _, _, _, _, rfl, rfl, rfl, hMerge, rfl, hFind⟩
      | created hMerge hFind =>
        exact ⟨rfl, _, _, _, _, rfl, rfl, rfl, hMerge, rfl,
          LayoutCache.find?_add_self hFind _⟩

end Outcome

/-- Whatever the cache has and whatever is refused, a shader is created as a whole or not at all. -/
theorem create_settled (c : LayoutCache) (vertex fragment : ShaderSource) (h : Host) :
    ∃ result later h' log, (create c vertex fragment).run h = ((result, later), h') ∧
      Sent h h' log ∧ Settled c h.device vertex fragment result later log := by
  obtain ⟨result, later, h', log, hRun, hSent, hTried⟩ := create_tried c vertex fragment h
  refine ⟨result, later, h', log, hRun, hSent, ?_⟩
  constructor
  · rw [← reaches_end]
    constructor
    · rintro ⟨s, rfl⟩
      exact hTried.reaches_end
    · intro hReaches
      cases result with
      | ok s => exact ⟨s, rfl⟩
      | error e =>
        obtain ⟨place, hHinders, -⟩ := hTried.firstHinders
        exact absurd hHinders (hReaches place hHinders.place_lt e)
  · intro e
    constructor
    · rintro rfl
      exact hTried.firstHinders
    · intro hFirst
      cases result with
      | ok s => exact absurd hFirst (hTried.not_firstHinders e)
      | error f => rw [hFirst.unique hTried.firstHinders]
  · rintro e rfl
    exact ⟨hTried.undone, hSent.nodup⟩
  · rcases hTried.cache with hSame | ⟨slots, layout, hMerge, hFind, hLayouts, rfl⟩
    · exact .inl hSame
    · refine .inr ⟨slots, layout, hMerge, hFind, hLayouts, rfl, settles ?_⟩
      exact ⟨slots, layout, hMerge, LayoutCache.find?_add_self hFind layout⟩
  · rintro s rfl
    exact hTried.holds

end Shader

end FrameGraph
