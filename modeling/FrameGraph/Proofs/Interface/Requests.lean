import FrameGraph.Proofs.Pass.Failure
import FrameGraph.Proofs.Shader.Release
import FrameGraph.Shader.Creation

/-! # What set layouts are asked for

A cache is asked for the layouts of interfaces, by shaders and directly, while shaders and passes
come and go and the device refuses what it likes. An operation either spares all set layouts, or it
is served by the cache, which creates at most one.
-/

namespace FrameGraph

set_option autoImplicit false

open Host

/-! ## Operations -/

inductive CacheOperation where
  | provide (stages : List StageUniforms)
  | createShader (vertex fragment : ShaderSource)
  | releaseShader (shader : Shader)
  | compile (pass : Pass) (images : ImageMap)
  | destroyPass (objects : PassObjects)
  | dropPass (pass : Pass)

/-- The uniforms for which the operation asks for a layout. -/
def CacheOperation.stages? : CacheOperation → Option (List StageUniforms)
  | .provide stages => some stages
  | .createShader vertex fragment => some (Shader.interface vertex fragment)
  | _ => none

/-- What a cache was asked, and what came of it. -/
structure Answer where
  stages : List StageUniforms
  result : Except ShaderError (Handle .setLayout)

namespace LayoutCache

def step (c : LayoutCache) : CacheOperation → HostM LayoutCache
  | .provide stages => do
    match ← (c.layoutFor stages).run with
    | .ok (_, later) => return later
    | .error _ => return c
  | .createShader vertex fragment => do
    return (← Shader.create c vertex fragment).2
  | .releaseShader shader => do
    shader.release
    return c
  | .compile pass images => do
    let _ ← (pass.compile images).run
    return c
  | .destroyPass objects => do
    let _ ← objects.destroy
    return c
  | .dropPass pass => do
    pass.drop
    return c

/-- What the cache is going to answer to the operation. -/
def answer? (c : LayoutCache) (op : CacheOperation) : HostM (Option Answer) := fun h =>
  (op.stages?.map fun stages =>
    ⟨stages, ((c.layoutFor stages).run.run h).1.map Prod.fst⟩, h)

def run (c : LayoutCache) : List CacheOperation → HostM (List Answer × LayoutCache)
  | [] => return ([], c)
  | op :: rest => do
    let answer ← c.answer? op
    let next ← c.step op
    let (later, last) ← next.run rest
    return (answer.toList ++ later, last)

end LayoutCache

/-! ## Calls about set layouts -/

def Call.setLayout? : Call → Option (SetLayoutInfo × Handle .setLayout)
  | .create (.setLayout info) (.made id) => some (info, ⟨id⟩)
  | _ => none

/-- The set layouts that were created, in the order of their creation. -/
def Log.setLayouts (log : List Call) : List (SetLayoutInfo × Handle .setLayout) :=
  log.filterMap Call.setLayout?

def Call.SparesLayouts : Call → Prop
  | .create info _ => info.kind ≠ .setLayout
  | .destroy o => o.kind ≠ .setLayout
  | _ => True

theorem Call.Concerns.spares {kinds : List ObjectKind} (hKinds : .setLayout ∉ kinds) {c : Call}
    (h : c.Concerns kinds) : c.SparesLayouts := by
  cases c with
  | create info outcome => exact fun hKind => hKinds (hKind ▸ h _ rfl)
  | destroy o => exact fun hKind => hKinds (hKind ▸ h _ rfl)
  | _ => exact trivial

theorem Host.Within.spares {α : Type} {kinds : List ObjectKind} {work : HostM α}
    (hWork : Within (Call.Concerns kinds) work) (hKinds : .setLayout ∉ kinds) :
    Within Call.SparesLayouts work := hWork.mono fun _ hConcerns => hConcerns.spares hKinds

namespace Log

@[simp] theorem setLayouts_append (log next : List Call) :
    setLayouts (log ++ next) = setLayouts log ++ setLayouts next := List.filterMap_append

theorem setLayouts_of_spares {log : List Call} (h : ∀ c ∈ log, c.SparesLayouts) :
    setLayouts log = [] := by
  refine List.filterMap_eq_nil_iff.mpr fun c hc => ?_
  have hSpares := h c hc
  unfold Call.setLayout?
  split
  · exact absurd rfl hSpares
  · rfl

theorem destroyed_of_spares {log : List Call} (h : ∀ c ∈ log, c.SparesLayouts) :
    ∀ o ∈ destroyed log, o.kind ≠ .setLayout := fun _ ho => h _ (mem_destroyed.mp ho)

theorem setLayouts_sublist_made (log : List Call) :
    ((setLayouts log).map fun e => e.2.object).Sublist (made log) := by
  induction log with
  | nil => exact .slnil
  | cons c log ih =>
    have hMade : made (c :: log) = c.made ++ made log := rfl
    rw [hMade, setLayouts]
    cases hLayout : c.setLayout? with
    | none =>
      rw [List.filterMap_cons_none hLayout]
      exact ih.trans (List.sublist_append_right _ _)
    | some e =>
      unfold Call.setLayout? at hLayout
      split at hLayout
      · cases hLayout
        exact ih.cons_cons _
      · cases hLayout

end Log

/-! ## Asking for a layout -/

namespace LayoutCache

/-- How a cache comes to its answer, and the calls that it makes. -/
inductive Served (c : LayoutCache) (stages : List StageUniforms) (d : Device) :
    Except ShaderError (Handle .setLayout × LayoutCache) → List Call → Prop
  | conflict {e : ShaderError} (hMerge : StageUniforms.merge stages = .error e) :
      Served c stages d (.error e) []
  | found {slots : List ResourceSlot} {layout : Handle .setLayout}
      (hMerge : StageUniforms.merge stages = .ok slots) (hFind : c.find? slots = some layout) :
      Served c stages d (.ok (layout, c)) []
  | created {slots : List ResourceSlot} (hMerge : StageUniforms.merge stages = .ok slots)
      (hFind : c.find? slots = none) (hAnswer : d.answer (.create .setLayout) = none) :
      Served c stages d (.ok (⟨d.issued + 1⟩, c.add slots ⟨d.issued + 1⟩))
        [.create (.setLayout { slots := slots }) (.made (d.issued + 1))]
  | refused {slots : List ResourceSlot} {code : ResultCode}
      (hMerge : StageUniforms.merge stages = .ok slots) (hFind : c.find? slots = none)
      (hAnswer : d.answer (.create .setLayout) = some code) :
      Served c stages d (.error (.refused code))
        [.create (.setLayout { slots := slots }) (.refused code none)]

variable {c : LayoutCache} {stages : List StageUniforms} {d : Device}

theorem ends_layoutFor (c : LayoutCache) (stages : List StageUniforms) (h : Host) :
    Ends (c.layoutFor stages) h (fun r log => Served c stages h.device (.ok r) log)
      fun e log => Served c stages h.device (.error e) log := by
  unfold layoutFor
  cases hMerge : StageUniforms.merge stages with
  | error e => exact .throw (.conflict hMerge)
  | ok slots =>
    change Ends (c.provide slots) _ _ _
    unfold provide
    cases hFind : c.find? slots with
    | some layout => exact .pure (.found hMerge hFind)
    | none =>
      have hAcquire :=
        ends_acquire_outright (.setLayout { slots := slots }) ShaderError.refused h nofun
      refine (hAcquire.mono_failed ?_).bind ?_
      · rintro e _ ⟨code, hAnswer, rfl, rfl⟩
        exact .refused hMerge hFind hAnswer
      · rintro ⟨_⟩ _ h₁ ⟨hAnswer, rfl, rfl⟩ -
        exact .quietly (sent_report _ h₁) (.pure (.created hMerge hFind hAnswer))

theorem served (c : LayoutCache) (stages : List StageUniforms) (h : Host) :
    ∃ log, Sent h ((c.layoutFor stages).run.run h).2 log ∧
      Served c stages h.device ((c.layoutFor stages).run.run h).1 log := by
  rcases (c.ends_layoutFor stages h).cases with
    ⟨r, h₁, log, hRun, hSent, hServed⟩ | ⟨e, h₁, log, hRun, hSent, hServed⟩
  · exact ⟨log, hRun ▸ hSent, hRun ▸ hServed⟩
  · exact ⟨log, hRun ▸ hSent, hRun ▸ hServed⟩

/-- The answer is up to the cache, the device's own answer and its next identifier. -/
theorem Served.unique {d' : Device} {r r' : Except ShaderError (Handle .setLayout × LayoutCache)}
    {log log' : List Call} (h : Served c stages d r log) (h' : Served c stages d' r' log')
    (hAnswer : d.answer (.create .setLayout) = d'.answer (.create .setLayout))
    (hIssued : d.issued = d'.issued) : r = r' := by
  cases h <;> cases h' <;> grind

theorem Served.error_calls {e : ShaderError} {log : List Call}
    (h : Served c stages d (.error e) log) : Log.made log = [] ∧ Log.destroyed log = [] := by
  cases h with
  | conflict => exact ⟨rfl, rfl⟩
  | refused => exact ⟨rfl, rfl⟩

end LayoutCache

theorem LayoutCache.confined_layoutFor (c : LayoutCache) (stages : List StageUniforms) :
    Confined (.about [.setLayout]) (fun _ => True) (c.layoutFor stages) := by
  unfold layoutFor
  split
  · exact .throw trivial
  · unfold provide
    split
    · exact .pure _
    · refine .bind (.acquire_about ?_ _) fun layout => ?_
      · exact List.mem_singleton.mpr rfl
      exact .always_bind (.report trivial) fun _ _ => .pure _

/-! ## Work that spares set layouts -/

namespace Shader

theorem confined_createModule (stage : ShaderStage) (words : List Nat) :
    Confined (.about [.shaderModule]) (fun _ => True) (createModule stage words) := by
  unfold createModule
  split
  · exact .throw trivial
  · refine .bind (.acquire_about ?_ _) fun code => ?_
    · exact List.mem_singleton.mpr rfl
    exact .always_bind (.report trivial) fun _ _ => .pure code

theorem confined_createModules (vertex fragment : ShaderSource) :
    Confined (.about [.shaderModule]) (fun _ => True) (createModules vertex fragment) := by
  have hFirst : ∀ first : Handle .shaderModule,
      Call.Concerns [.shaderModule] (.destroy first.object) := fun _ =>
    Call.concerns_destroy (List.mem_singleton_self _)
  refine .bind (confined_createModule _ _) fun first => ?_
  exact .bind (.cleaningUp (.destroy (hFirst first)) (confined_createModule _ _))
    fun second => .pure (first, second)

theorem run_create_of_error {cache : LayoutCache} {vertex fragment : ShaderSource} {h h₁ : Host}
    {e : ShaderError}
    (hRun : (cache.layoutFor (interface vertex fragment)).run.run h = (.error e, h₁)) :
    (create cache vertex fragment).run h = ((.error e, cache), h₁) := by
  rw [create, StateT.run_bind, hRun]
  rfl

theorem run_create_of_ok {cache later : LayoutCache} {vertex fragment : ShaderSource}
    {h h₁ : Host} {layout : Handle .setLayout}
    (hRun : (cache.layoutFor (interface vertex fragment)).run.run h = (.ok (layout, later), h₁)) :
    ((create cache vertex fragment).run h).1.2 = later ∧
      ((create cache vertex fragment).run h).2.device =
        ((createModules vertex fragment).run.run h₁).2.device := by
  rw [create, StateT.run_bind, hRun]
  simp only [bind, StateT.bind, StateT.run]
  generalize (createModules vertex fragment).run h₁ = made
  rcases made with ⟨e | modules, h₂⟩
  · exact ⟨rfl, rfl⟩
  · exact ⟨rfl, rfl⟩

theorem within_release (s : Shader) : Within (Call.Concerns [.shaderModule]) s.release := by
  intro h
  obtain ⟨os, hSent, -, hGone⟩ := s.sent_release h
  refine ⟨_, hSent, fun c hc => ?_⟩
  obtain ⟨o, ho, rfl⟩ := List.mem_map.mp hc
  exact Call.concerns_destroy (List.mem_singleton.mpr (kind_of_mem_objects (hGone o ho).1))

end Shader

theorem Pass.within_drop (p : Pass) : Within (Call.Concerns [.shaderModule]) p.drop := by
  intro h
  obtain ⟨os, hSent, -, hGone⟩ := p.sent_drop h
  refine ⟨_, hSent, fun c hc => ?_⟩
  obtain ⟨o, ho, rfl⟩ := List.mem_map.mp hc
  exact Call.concerns_destroy (List.mem_singleton.mpr (hGone o ho).kind)

namespace LayoutCache

/-! ## One operation -/

/-- What an operation is answered, what becomes of the cache, and the calls that it makes. -/
inductive Turn (c : LayoutCache) (d : Device) : Option Answer → LayoutCache → List Call → Prop
  | idle {rest : List Call} (hSpares : ∀ call ∈ rest, call.SparesLayouts) : Turn c d none c rest
  | failed {stages : List StageUniforms} {e : ShaderError} {log : List Call}
      (hServed : Served c stages d (.error e) log) : Turn c d (some ⟨stages, .error e⟩) c log
  | answered {stages : List StageUniforms} {layout : Handle .setLayout} {later : LayoutCache}
      {log rest : List Call} (hServed : Served c stages d (.ok (layout, later)) log)
      (hSpares : ∀ call ∈ rest, call.SparesLayouts) :
      Turn c d (some ⟨stages, .ok layout⟩) later (log ++ rest)

theorem provide_turn (c : LayoutCache) (stages : List StageUniforms) (h : Host) :
    ∃ log, Sent h ((c.step (.provide stages)).run h).2 log ∧
      Turn c h.device ((c.answer? (.provide stages)).run h).1
        ((c.step (.provide stages)).run h).1 log := by
  obtain ⟨log, hSent, hServed⟩ := c.served stages h
  have hAnswer : ((c.answer? (.provide stages)).run h).1 =
    some ⟨stages, ((c.layoutFor stages).run.run h).1.map Prod.fst⟩ := rfl
  rw [hAnswer, step, StateT.run_bind]
  generalize (c.layoutFor stages).run.run h = served at hSent hServed ⊢
  rcases served with ⟨e | ⟨layout, later⟩, h₁⟩
  · exact ⟨log, hSent, .failed hServed⟩
  · have hAll := Turn.answered hServed (List.forall_mem_nil _)
    rw [List.append_nil] at hAll
    exact ⟨log, hSent, hAll⟩

theorem createShader_turn (c : LayoutCache) (vertex fragment : ShaderSource) (h : Host) :
    ∃ log, Sent h ((c.step (.createShader vertex fragment)).run h).2 log ∧
      Turn c h.device ((c.answer? (.createShader vertex fragment)).run h).1
        ((c.step (.createShader vertex fragment)).run h).1 log := by
  obtain ⟨log, hSent, hServed⟩ := c.served (Shader.interface vertex fragment) h
  have hAnswer : ((c.answer? (.createShader vertex fragment)).run h).1 =
    some ⟨Shader.interface vertex fragment,
      ((c.layoutFor (Shader.interface vertex fragment)).run.run h).1.map Prod.fst⟩ := rfl
  have hStep : (c.step (.createShader vertex fragment)).run h =
      (((Shader.create c vertex fragment).run h).1.2,
        ((Shader.create c vertex fragment).run h).2) := rfl
  rw [hAnswer, hStep]
  rcases hRun : (c.layoutFor (Shader.interface vertex fragment)).run.run h with
    ⟨e | ⟨layout, later⟩, h₁⟩
  · rw [hRun] at hSent hServed
    rw [Shader.run_create_of_error hRun]
    exact ⟨log, hSent, .failed hServed⟩
  · rw [hRun] at hSent hServed
    obtain ⟨rest, hRest, hConcerns⟩ := (Shader.confined_createModules vertex fragment).within h₁
    -- Whatever becomes of the modules, the cache stays as it gave the layout.
    obtain ⟨hCache, hDevice⟩ := Shader.run_create_of_ok hRun
    rw [hCache]
    have hAll := hSent.trans (hRest.trans (.of_device_eq hDevice))
    rw [List.append_nil] at hAll
    exact ⟨log ++ rest, hAll, .answered hServed fun call hCall =>
      (hConcerns call hCall).spares (by decide)⟩

/-- Shaders and passes only use the layouts. -/
theorem within_step (c : LayoutCache) {op : CacheOperation} (hIdle : op.stages? = none) :
    Within Call.SparesLayouts (c.step op) := by
  cases op with
  | provide stages => cases hIdle
  | createShader vertex fragment => cases hIdle
  | releaseShader shader => exact shader.within_release.spares (by decide)
  | compile pass images =>
    have hConcerns := (pass.confined_compile images).within.mono fun _ => Pass.Issues.concerns
    exact hConcerns.spares (by decide)
  | destroyPass objects => exact objects.keepsTo_destroy.within.spares (by decide)
  | dropPass pass => exact pass.within_drop.spares (by decide)

theorem idle_turn (c : LayoutCache) {op : CacheOperation} (hIdle : op.stages? = none) (h : Host) :
    ∃ log, Sent h ((c.step op).run h).2 log ∧
      Turn c h.device ((c.answer? op).run h).1 ((c.step op).run h).1 log := by
  obtain ⟨log, hSent, hSpares⟩ := c.within_step hIdle h
  have hAnswer : ((c.answer? op).run h).1 = none := Option.map_eq_none_iff.mpr hIdle
  have hCache : ((c.step op).run h).1 = c := by
    cases op with
    | provide stages => cases hIdle
    | createShader vertex fragment => cases hIdle
    | _ => rfl
  rw [hAnswer, hCache]
  exact ⟨log, hSent, .idle hSpares⟩

theorem step_turn (c : LayoutCache) (op : CacheOperation) (h : Host) :
    ∃ log, Sent h ((c.step op).run h).2 log ∧
      Turn c h.device ((c.answer? op).run h).1 ((c.step op).run h).1 log := by
  cases op with
  | provide stages => exact c.provide_turn stages h
  | createShader vertex fragment => exact c.createShader_turn vertex fragment h
  | _ => exact c.idle_turn rfl h

end LayoutCache

end FrameGraph
