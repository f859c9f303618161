import FrameGraph.Proofs.Plan.Acceptance
import FrameGraph.Proofs.Shader.Upkeep
import Mathlib.Data.List.Flatten

/-! # How long shader modules live

Modules live as long as their shader is held. The ledger counts how often a module was made or
handed over, which is once at most when nobody hands over what is there already. So nothing is
destroyed twice, and what is gone is gone for a reason.
-/

namespace FrameGraph

set_option autoImplicit false

open Host

/-- The modules that are handed over between two moments are real. Each is handed over once, and
the device makes none of them in between. -/
structure Foreign (h h' : Host) (adopted : List Object) : Prop where
  real : ∀ o ∈ adopted, o.id ≠ Handle.absentId
  once : adopted.Nodup
  apart : ∀ o ∈ adopted, o.id ≤ h.device.issued ∨ h'.device.issued < o.id

namespace Ledger.Balances

variable {l : Ledger} {h h' : Host} {log : List Call} {s : Shader} {o : Object}

theorem total_le_one (hBalances : l.Balances h' log) (hSent : Sent h h' log)
    (hForeign : Foreign h h' l.adopted) (o : Object) : l.total o ≤ 1 := by
  have hMade : (Log.madeModules log).count o ≤ 1 :=
    List.nodup_iff_count_le_one.mp (hSent.nodup.filter _) o
  have hAdopted : l.adopted.count o ≤ 1 := List.nodup_iff_count_le_one.mp hForeign.once o
  rw [hBalances.origin]
  by_cases ho : o ∈ l.adopted
  · have hNew : o ∉ Log.madeModules log := fun hMem => by
      have hMade := List.mem_of_mem_filter hMem
      have hAfter := hSent.issued_lt hMade
      have hBefore := hSent.le_issued hMade
      rcases hForeign.apart o ho with hOld | hLater
      · omega
      · omega
    rw [List.count_eq_zero.mpr hNew]
    omega
  · rw [List.count_eq_zero.mpr ho]
    omega

theorem gone_le_total (hBalances : l.Balances h log) (o : Object) :
    (Log.destroyedModules log).count o ≤ l.total o := by
  have hUnheld : (Shader.allObjects (Shader.unheld l.shaders l.held)).Sublist
      (Shader.allObjects l.shaders) := List.filter_sublist.flatMap Shader.objects
  have hLe := hUnheld.count_le o
  rw [hBalances.gone, total]
  omega

theorem mem_gone (hBalances : l.Balances h log) (hs : s ∈ l.shaders) (hLeft : s ∉ l.held)
    (ho : o ∈ s.objects) : o ∈ Log.destroyedModules log := by
  have hUnheld : s ∈ Shader.unheld l.shaders l.held :=
    List.mem_filter.mpr ⟨hs, by simpa using hLeft⟩
  have hLe := Shader.count_objects_le hUnheld o
  have hCount : 0 < s.objects.count o := List.count_pos_iff.mpr ho
  refine List.count_pos_iff.mp ?_
  rw [hBalances.gone]
  omega

theorem not_mem_gone (hBalances : l.Balances h log) (hOnce : ∀ o, l.total o ≤ 1)
    (hHeld : s ∈ l.held) (ho : o ∈ s.objects) : o ∉ Log.destroyedModules log := by
  have hLe := hBalances.count_held hHeld o
  have hCount : 0 < s.objects.count o := List.count_pos_iff.mpr ho
  have hTotal := hOnce o
  exact List.count_eq_zero.mp (by omega)

theorem count_destroyed (hBalances : l.Balances h log) (hOnce : ∀ o, l.total o ≤ 1)
    (hs : s ∈ l.shaders) (ho : o ∈ s.objects) :
    (Log.destroyed log).count o = if s ∈ l.held then 0 else 1 := by
  rw [← Log.count_destroyedModules log (Shader.kind_of_mem_objects ho)]
  split
  · next hHeld => exact List.count_eq_zero.mpr (hBalances.not_mem_gone hOnce hHeld ho)
  · next hLeft =>
    have hGone := List.count_pos_iff.mpr (hBalances.mem_gone hs hLeft ho)
    have hLe := (hBalances.gone_le_total o).trans (hOnce o)
    omega

theorem ne_absent (hBalances : l.Balances h' log) (hSent : Sent h h' log)
    (hForeign : Foreign h h' l.adopted) (ho : o ∈ Log.destroyedModules log) :
    o.id ≠ Handle.absentId := by
  have hCount : 0 < l.total o := (List.count_pos_iff.mpr ho).trans_le (hBalances.gone_le_total o)
  rw [hBalances.origin] at hCount
  by_cases hAdopted : o ∈ l.adopted
  · exact hForeign.real o hAdopted
  · have hNone := List.count_eq_zero.mpr hAdopted
    have hMade : o ∈ Log.madeModules log := List.count_pos_iff.mp (by omega)
    have hId := hSent.issued_lt (List.mem_of_mem_filter hMade)
    exact Nat.ne_of_gt (Nat.zero_lt_of_lt hId)

/-- A module that no shader has went with a shader that could not be made. -/
theorem accounted (hBalances : l.Balances h log) (hOnce : ∀ o, l.total o ≤ 1)
    (hKind : o.kind = .shaderModule) (ho : o ∈ Log.made log ∨ o ∈ l.adopted) :
    o ∈ Shader.allObjects l.shaders ∨ (Log.destroyed log).count o = 1 := by
  rw [← Log.count_destroyedModules log hKind]
  have hThere : 0 < l.total o := by
    rw [hBalances.origin]
    rcases ho with hMade | hAdopted
    · have hMem : o ∈ Log.madeModules log := List.mem_filter.mpr ⟨hMade, decide_eq_true hKind⟩
      have hCount := List.count_pos_iff.mpr hMem
      omega
    · have hCount := List.count_pos_iff.mpr hAdopted
      omega
  by_cases hMem : o ∈ Shader.allObjects l.shaders
  · exact .inl hMem
  · have hNone := List.count_eq_zero.mpr hMem
    have hGone := hBalances.gone o
    have hLe := (hBalances.gone_le_total o).trans (hOnce o)
    unfold total at hThere
    exact .inr (by omega)

/-- No pipeline is made from modules that are gone. -/
theorem stage_there (hBalances : l.Balances h log) (hOnce : ∀ o, l.total o ≤ 1)
    {before after : List Call} {info : PipelineInfo} {outcome : Creation}
    (hLog : log = before ++ .create (.pipeline info) outcome :: after) {i : StageInfo}
    (hStage : i ∈ info.stages) {m : Handle .shaderModule} (hModule : m ∈ i.shaderModule) :
    m.object ∉ Log.destroyed before := by
  obtain ⟨s, -, hStages, hCount⟩ := hBalances.covers before _ after info hLog rfl
  have hObject : m.object ∈ s.objects := by
    refine List.mem_map_of_mem ?_
    rw [hStages, Shader.stageInfos, List.mem_cons, List.mem_singleton] at hStage
    rcases hStage with rfl | rfl
    · exact List.mem_append_left _ (Option.mem_toList.mpr hModule)
    · exact List.mem_append_right _ (Option.mem_toList.mpr hModule)
  intro hGone
  have hMem : m.object ∈ Log.destroyedModules before :=
    List.mem_filter.mpr ⟨hGone, decide_eq_true rfl⟩
  have hThere := List.count_pos_iff.mpr hObject
  have hDestroyed := List.count_pos_iff.mpr hMem
  have hLe := (hCount m.object).trans (hOnce m.object)
  omega

end Ledger.Balances

/-- A build that fails destroys all that it made before any shader goes. The modules that go then
are those of the shaders that nobody else holds. -/
structure Plan.GivesUp (p : Plan) (others : List Shader) (work : List Call)
    (modules : List Object) : Prop where
  undone : ∀ o ∈ Log.made work, (Log.destroyed work).count o = 1
  own : ∀ o ∈ Log.destroyed work, o ∈ Log.made work ∧ o.kind ≠ .shaderModule
  last : ∀ o, o ∈ modules ↔
    ∃ s ∈ p.passes.flatMap Pass.shaders, s ∉ others ∧ o ∈ s.objects

namespace Workshop

variable {w : Workshop} {h h' : Host} {log : List Call}

theorem gives_up {lost adopted : List Object}
    (hBalances : (w.ledger lost adopted).Balances h log)
    (hOnce : ∀ o, (w.ledger lost adopted).total o ≤ 1) {k : Nat} {p : Plan} {env : Environment}
    {e : BuildError} (hPlace : w.holdings[k]? = some (.plan p))
    (hError : ((p.build env).run h).1 = .error e) :
    ∃ work modules, Sent h ((p.build env).run h).2 (work ++ modules.map .destroy) ∧
      p.GivesUp (w.without k).held work modules := by
  obtain ⟨work, modules, hSent, hGone, hEnd⟩ := p.build_cases env h
  have hReverts : Log.Reverts [] work := by
    rcases hEnd with ⟨g, _, _, hOk, -⟩ | ⟨_, -, hReverts, -⟩
    · rw [hOk] at hError
      cases hError
    · exact hReverts
  obtain ⟨next, hNext, hAfter⟩ := balances_build hBalances hPlace env
  obtain rfl : next = work ++ modules.map .destroy := hNext.unique hSent
  have hPerm := hReverts.destroyed_perm
  have hNodup : (Log.made work).Nodup := by
    have hMade := hSent.nodup
    rwa [Log.made_append, Log.made_destroys, List.append_nil] at hMade
  refine ⟨work, modules, hSent, fun o ho => ?_, fun o ho => ?_, fun o => ⟨fun ho => ?_, ?_⟩⟩
  · rw [hPerm.count_eq, List.count_eq_one_of_mem hNodup ho]
  · have hMade := hPerm.mem_iff.mp ho
    exact ⟨hMade, hReverts.made_ne_shaderModule hMade⟩
  · obtain ⟨q, hq, choice, hChoice, hObject, hKey⟩ := hGone o ho
    have hs : choice.shader ∈ q.shaders := Pass.mem_shaders hChoice
    -- Whoever else holds the shader still owns it after the build.
    refine ⟨choice.shader, List.mem_flatMap.mpr ⟨q, hq, hs⟩, fun hHeld => hKey ?_, hObject⟩
    exact hAfter.owners.mem_iff.mpr (List.mem_map_of_mem hHeld)
  · rintro ⟨s, hs, hLeft, hObject⟩
    -- The module is there before the build and gone afterwards, so it goes in the build.
    have hHeld : s ∈ w.held := shaders_subset_held hPlace hs
    have hThere := hBalances.not_mem_gone hOnce hHeld hObject
    have hMem := hAfter.mem_gone (hBalances.known s hHeld) hLeft hObject
    rw [Log.destroyedModules_append, List.mem_append, or_iff_right hThere] at hMem
    have hDestroyed := List.mem_of_mem_filter hMem
    rw [Log.destroyed_append, Log.destroyed_destroys] at hDestroyed
    refine (List.mem_append.mp hDestroyed).resolve_left fun hWork => ?_
    have hKind := Shader.kind_of_mem_objects hObject
    exact hReverts.made_ne_shaderModule (hPerm.mem_iff.mp hWork) hKind

/-- After any operations, the modules of a shader are there if somebody holds it, and otherwise
they were destroyed once. Pipelines are made from modules that are there. Where a build fails,
modules go after all that was made in the build. -/
theorem modules_live_while_held {cache : LayoutCache} {operations : List Operation}
    (hNobody : h.owners = []) (hRun : (run { cache := cache } operations).run h = (w, h'))
    (hForeign : Foreign h h' (operations.flatMap Operation.adopted)) :
    ∃ log, Sent h h' log ∧ w.held ⊆ w.shaders ∧
      (∀ s ∈ w.shaders, ∀ o ∈ s.objects,
        (Log.destroyed log).count o = if s ∈ w.held then 0 else 1) ∧
      (∀ o, o.kind = .shaderModule →
        o ∈ Log.made log ∨ o ∈ operations.flatMap Operation.adopted →
        o ∈ Shader.allObjects w.shaders ∨ (Log.destroyed log).count o = 1) ∧
      (∀ o ∈ Log.destroyed log, o.kind = .shaderModule → o.id ≠ Handle.absentId) ∧
      (∀ before info outcome after, log = before ++ .create (.pipeline info) outcome :: after →
        ∀ i ∈ info.stages, ∀ m ∈ i.shaderModule, m.object ∉ Log.destroyed before) ∧
      ∀ k (p : Plan) env e, w.holdings[k]? = some (.plan p) → ((p.build env).run h').1 = .error e →
        ∃ work modules, Sent h' ((p.build env).run h').2 (work ++ modules.map .destroy) ∧
          p.GivesUp (w.without k).held work modules := by
  obtain ⟨log, hSent, lost, hBalances⟩ := keeps_run operations (sound_empty cache hNobody)
  rw [hRun] at hSent hBalances
  have hOnce := hBalances.total_le_one hSent hForeign
  refine ⟨log, hSent, hBalances.known, fun s hs o => hBalances.count_destroyed hOnce hs,
    fun o => hBalances.accounted hOnce, fun o ho hKind => ?_,
    fun before info outcome after hLog i hStage m => hBalances.stage_there hOnce hLog hStage,
    fun k p env e => gives_up hBalances hOnce⟩
  exact hBalances.ne_absent hSent hForeign (List.mem_filter.mpr ⟨ho, decide_eq_true hKind⟩)

end Workshop

/-! An application that leaves its shader to a plan. The pass of the plan draws colors and depth
into one image, so the build fails. -/

namespace LeftToPlan

def shader : Shader := ⟨1, some ⟨1⟩, some ⟨2⟩, [], none⟩

def operations : List Workshop.Operation :=
  [.adopt shader.vertexModule shader.fragmentModule [] none, .begin "Scene",
    .declare 0 (.pipeline 0 []), .declare 0 (.color ⟨"z"⟩ .discard),
    .declare 0 (.depth ⟨"z"⟩ .discard), .drop 1, .draft ⟨"final"⟩, .add 1 0, .plan 0]

def draft : Draft where
  passes :=
    [{ name := "Scene"
       colors := [.of ⟨"z"⟩ .discard]
       depth := some (.of ⟨"z"⟩ .discard)
       pipeline := some ⟨shader, []⟩ }]
  output := ⟨"final"⟩

def host : Host where
  device := { script := .ofLists [] [] false, issued := 2 }

theorem holdings_eq :
    ((Workshop.run {} operations).run host).1.holdings = [.plan draft.plan] := rfl

theorem build_fails : ∃ e, ((draft.plan.build TwoPasses.environment).run
    ((Workshop.run {} operations).run host).2).1 = .error e := by
  have hNone : ((draft.plan.build TwoPasses.environment).run
      ((Workshop.run {} operations).run host).2).1.toOption.isNone = true := by cbv
  rcases hBuild : ((draft.plan.build TwoPasses.environment).run
    ((Workshop.run {} operations).run host).2).1 with e | g
  · exact ⟨e, rfl⟩
  · rw [hBuild] at hNone
    cases hNone

theorem foreign (h' : Host) :
    Foreign host h' (operations.flatMap Workshop.Operation.adopted) where
  real := by decide
  once := by decide
  apart o ho := .inl ((by decide : ∀ o ∈ operations.flatMap Workshop.Operation.adopted,
    o.id ≤ 2) o ho)

theorem modules_go_last : ∃ h' log work modules,
    ((Workshop.run {} operations).run host).2 = h' ∧ Sent host h' log ∧
      (∀ o ∈ shader.objects, (Log.destroyed log).count o = 0) ∧
      Sent h' ((draft.plan.build TwoPasses.environment).run h').2 (work ++ modules.map .destroy) ∧
      draft.plan.GivesUp [] work modules ∧ shader.objects ⊆ modules := by
  obtain ⟨e, hError⟩ := build_fails
  have hHoldings := holdings_eq
  rcases hRun : (Workshop.run {} operations).run host with ⟨w, h'⟩
  rw [hRun] at hError hHoldings
  obtain ⟨log, hSent, hKnown, hCount, -, -, -, hBuild⟩ :=
    Workshop.modules_live_while_held rfl hRun (foreign h')
  have hHeld : w.held = [shader] := by
    rw [Workshop.held, hHoldings]
    rfl
  have hPlace : w.holdings[0]? = some (.plan draft.plan) := by
    rw [hHoldings]
    rfl
  have hOthers : (w.without 0).held = [] := by
    rw [Workshop.held, Workshop.without, hHoldings]
    rfl
  have hShader : shader ∈ w.held := hHeld ▸ List.mem_singleton_self _
  obtain ⟨work, modules, hCalls, hGivesUp⟩ := hBuild 0 draft.plan _ e hPlace hError
  rw [hOthers] at hGivesUp
  refine ⟨h', log, work, modules, rfl, hSent, fun o ho => ?_, hCalls, hGivesUp, fun o ho => ?_⟩
  · rw [hCount shader (hKnown hShader) o ho, if_pos hShader]
  · exact (hGivesUp.last o).mpr ⟨shader, List.mem_singleton_self _, List.not_mem_nil, ho⟩

end LeftToPlan

end FrameGraph
