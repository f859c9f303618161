import FrameGraph.Proofs.Host.Requests
import FrameGraph.Proofs.Interface.Requests
import FrameGraph.Proofs.Shader.Footprint

/-! # The calls that create a shader

A shader is created with two modules of its own. When one of them cannot be had, none of them is
left, and the owners of shaders are as before.
-/

namespace FrameGraph

set_option autoImplicit false

open Host

/-- No pipeline is made, and the shader modules that are made go again. -/
structure Log.Cancels (log : List Call) : Prop where
  idle : ∀ c ∈ log, c.pipeline? = none
  modules : (destroyedModules log).Perm (madeModules log)

namespace Log

variable {log next : List Call} {shaders : List Shader}

theorem Cancels.nil : Cancels [] := ⟨List.forall_mem_nil _, .refl _⟩

theorem Cancels.append (h : Cancels log) (hNext : Cancels next) : Cancels (log ++ next) where
  idle := List.forall_mem_append.mpr ⟨h.idle, hNext.idle⟩
  modules := by
    rw [destroyedModules_append, madeModules_append]
    exact h.modules.append hNext.modules

theorem cancels_of_uses (h : ∀ c ∈ log, c.UsesOnly []) : Cancels log where
  idle c hc := by
    cases hInfo : c.pipeline? with
    | none => rfl
    | some info =>
      obtain ⟨s, hs, -⟩ := (h c hc).pipelines info hInfo
      cases hs
  modules := by rw [destroyedModules_of_uses h, madeModules_of_uses h]

end Log

namespace Shader

def moduleCall (words : List Nat) (code : Handle .shaderModule) : Call :=
  .create (.shaderModule ⟨words⟩) (.made code.id)

/-- How making the two modules ends, and with which calls. -/
inductive ModulesTried (d : Device) (vertex fragment : ShaderSource) :
    Except ShaderError (Handle .shaderModule × Handle .shaderModule) → List Call → Prop
  | noVertexCode (hVertex : vertex.words = []) :
      ModulesTried d vertex fragment (.error (.emptyCode .vertex)) []
  | vertexRefused (code : ResultCode) (hVertex : vertex.words ≠ [])
      (hAnswer : d.answer (.create .shaderModule) = some code) :
      ModulesTried d vertex fragment (.error (.refused code))
        [.create (.shaderModule ⟨vertex.words⟩) (.refused code none)]
  | noFragmentCode (first : Handle .shaderModule) (hVertex : vertex.words ≠ [])
      (hAnswer : d.answer (.create .shaderModule) = none) (hFragment : fragment.words = []) :
      ModulesTried d vertex fragment (.error (.emptyCode .fragment))
        [moduleCall vertex.words first, .destroy first.object]
  | fragmentRefused (first : Handle .shaderModule) (code : ResultCode) (hVertex : vertex.words ≠ [])
      (hAnswer : d.answer (.create .shaderModule) = none) (hFragment : fragment.words ≠ [])
      (hNext : d.answerAfter 1 (.create .shaderModule) = some code) :
      ModulesTried d vertex fragment (.error (.refused code))
        [moduleCall vertex.words first,
          .create (.shaderModule ⟨fragment.words⟩) (.refused code none), .destroy first.object]
  | made (first second : Handle .shaderModule) (hVertex : vertex.words ≠ [])
      (hAnswer : d.answer (.create .shaderModule) = none) (hFragment : fragment.words ≠ [])
      (hNext : d.answerAfter 1 (.create .shaderModule) = none) :
      ModulesTried d vertex fragment (.ok (first, second))
        [moduleCall vertex.words first, moduleCall fragment.words second]

theorem ends_createModule (stage : ShaderStage) (words : List Nat) (h : Host) :
    Ends (createModule stage words) h
      (fun code log => words ≠ [] ∧ h.device.answer (.create .shaderModule) = none ∧
        log = [moduleCall words code])
      fun e log => (words = [] ∧ e = .emptyCode stage ∧ log = []) ∨
        words ≠ [] ∧ ∃ code, h.device.answer (.create .shaderModule) = some code ∧
          e = .refused code ∧ log = [.create (.shaderModule ⟨words⟩) (.refused code none)] := by
  unfold createModule
  split
  · rename_i hEmpty
    exact .throw (.inl ⟨List.isEmpty_iff.mp hEmpty, rfl, rfl⟩)
  · rename_i hWords
    have hSome : words ≠ [] := fun hNone => hWords (List.isEmpty_iff.mpr hNone)
    have hAcquire := ends_acquire_outright (.shaderModule ⟨words⟩) ShaderError.refused h nofun
    refine (hAcquire.mono_failed ?_).bind ?_
    · rintro e _ hRefused
      exact .inr ⟨hSome, hRefused⟩
    · rintro code _ h₁ ⟨hAnswer, -, rfl⟩ -
      exact .quietly (sent_report _ h₁) (.pure ⟨hSome, hAnswer, rfl⟩)

theorem ends_createModules (vertex fragment : ShaderSource) (h : Host) :
    Ends (createModules vertex fragment) h
      (fun codes log => ModulesTried h.device vertex fragment (.ok codes) log)
      fun e log => ModulesTried h.device vertex fragment (.error e) log := by
  refine ((ends_createModule .vertex vertex.words h).mono_failed ?_).bind_counting
    (confined_createModule _ _).counts ?_
  · rintro e _ (⟨hVertex, rfl, rfl⟩ | ⟨hVertex, code, hAnswer, rfl, rfl⟩)
    · exact .noVertexCode hVertex
    · exact .vertexRefused code hVertex hAnswer
  rintro first _ h₁ ⟨hVertex, hAnswer, rfl⟩ hSent hCounted
  have hNext : h₁.device.answer (.create .shaderModule) =
      h.device.answerAfter 1 (.create .shaderModule) := hSent.answerAfter hCounted 0 _
  have hSecond := ends_createModule .fragment fragment.words h₁
  rw [hNext] at hSecond
  refine (Ends.cleaningUp [first.object] (fun h _ => sent_destroy first.object h)
    (hSecond.mono_failed ?_)).bind ?_
  · rintro e _ (⟨hFragment, rfl, rfl⟩ | ⟨hFragment, code, hRefused, rfl, rfl⟩)
    · exact .noFragmentCode first hVertex hAnswer hFragment
    · exact .fragmentRefused first code hVertex hAnswer hFragment hRefused
  · rintro second _ h₂ ⟨hFragment, hNone, rfl⟩ -
    exact .pure (.made first second hVertex hAnswer hFragment hNone)

theorem ModulesTried.cancels {d : Device} {vertex fragment : ShaderSource} {e : ShaderError}
    {log : List Call} (h : ModulesTried d vertex fragment (.error e) log) : Log.Cancels log := by
  cases h with
  | noVertexCode => exact .nil
  | vertexRefused => exact ⟨List.forall_mem_singleton.mpr rfl, .refl _⟩
  | noFragmentCode => exact ⟨by simp [moduleCall, Call.pipeline?, CreateInfo.pipeline?], .refl _⟩
  | fragmentRefused => exact ⟨by simp [moduleCall, Call.pipeline?, CreateInfo.pipeline?], .refl _⟩

/-- What comes of creating a shader, and the calls that it takes. -/
inductive Created (h : Host) : Except ShaderError Shader → Host → List Call → Prop
  | made {s : Shader} {h' : Host} {log : List Call} (hKey : s.key = h.lastKey + 1)
      (hOwnership : ownership h' = (s.key :: h.owners, s.key))
      (hIdle : ∀ c ∈ log, c.pipeline? = none) (hDestroyed : Log.destroyedModules log = [])
      (hMade : Log.madeModules log = s.objects) : Created h (.ok s) h' log
  | failed {e : ShaderError} {h' : Host} {log : List Call}
      (hOwnership : ownership h' = ownership h) (hCancels : Log.Cancels log) :
      Created h (.error e) h' log

theorem run_create (cache later : LayoutCache) (vertex fragment : ShaderSource) {h h₁ : Host}
    {layout : Handle .setLayout}
    (hRun : (cache.layoutFor (interface vertex fragment)).run.run h = (.ok (layout, later), h₁)) :
    (create cache vertex fragment).run h =
      match (createModules vertex fragment).run.run h₁ with
      | (.error e, h₂) => ((.error e, later), h₂)
      | (.ok codes, h₂) =>
        ((.ok ⟨h₂.lastKey + 1, some codes.1, some codes.2, vertex.attributes, some layout⟩,
          later), (register.run h₂).2) := by
  rw [create, StateT.run_bind, hRun]
  simp only [bind, StateT.bind, StateT.run]
  rcases (createModules vertex fragment).run h₁ with ⟨e | codes, h₂⟩
  · rfl
  · rfl

theorem created (cache : LayoutCache) (vertex fragment : ShaderSource) (h : Host) :
    ∃ log, Sent h ((create cache vertex fragment).run h).2 log ∧
      Created h ((create cache vertex fragment).run h).1.1
        ((create cache vertex fragment).run h).2 log := by
  have hAsked := cache.confined_layoutFor (interface vertex fragment)
  obtain ⟨layoutLog, hLayout, hConcerns⟩ := hAsked.within h
  have hUses : ∀ c ∈ layoutLog, c.UsesOnly [] := fun c hc =>
    (hConcerns c hc).usesNone (by decide) (by decide) []
  have hKept := hAsked.preserves_ownership h
  rcases hRun : (cache.layoutFor (interface vertex fragment)).run.run h with
    ⟨e | ⟨layout, later⟩, h₁⟩
  · rw [hRun] at hLayout hKept
    rw [run_create_of_error hRun]
    exact ⟨layoutLog, hLayout, .failed hKept (Log.cancels_of_uses hUses)⟩
  · rw [hRun] at hLayout hKept
    have hCancels := Log.cancels_of_uses hUses
    have hModules := (confined_createModules vertex fragment).preserves_ownership h₁
    rw [run_create cache later vertex fragment hRun]
    rcases (ends_createModules vertex fragment h₁).cases with
      ⟨codes, h₂, log, hRun₂, hSent, hTried⟩ | ⟨e, h₂, log, hRun₂, hSent, hTried⟩
    · obtain ⟨first, second⟩ := codes
      cases hTried
      rw [hRun₂] at hModules
      have hSame : ownership h₂ = ownership h := hModules.trans hKept
      have hOwners : h₂.owners = h.owners := congrArg Prod.fst hSame
      have hLast : h₂.lastKey = h.lastKey := congrArg Prod.snd hSame
      have hRegister : Sent h₂ (register.run h₂).2 [] := .of_device_eq rfl
      rw [hRun₂]
      refine ⟨_, hLayout.trans (hSent.trans hRegister), ?_⟩
      rw [List.append_nil]
      refine .made (hLast ▸ rfl) (hOwners ▸ rfl) ?_ ?_ ?_
      · refine List.forall_mem_append.mpr ⟨hCancels.idle, List.forall_mem_cons.mpr ⟨rfl, ?_⟩⟩
        exact List.forall_mem_singleton.mpr rfl
      · rw [Log.destroyedModules_append, Log.destroyedModules_of_uses hUses]
        rfl
      · rw [Log.madeModules_append, Log.madeModules_of_uses hUses]
        rfl
    · rw [hRun₂] at hModules
      rw [hRun₂]
      exact ⟨layoutLog ++ log, hLayout.trans hSent,
        .failed (hModules.trans hKept) (hCancels.append hTried.cancels)⟩

end Shader

end FrameGraph
