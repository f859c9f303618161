import FrameGraph.Proofs.Plan.Assembly
import FrameGraph.Proofs.Shader.Release

/-! # What a build leaves behind

A build that succeeds leaves the objects of the graph and nothing else, and one that fails leaves
nothing at all. The shaders of the passes are let go either way, after everything else.
-/

namespace FrameGraph.Plan

set_option autoImplicit false

open Host

theorem run_build (env : Environment) (p : Plan) (h : Host) :
    (p.build env).run h = (((p.assemble env).run.run h).1,
      (p.drop.run ((p.assemble env).run.run h).2).2) := rfl

/-- The calls of a build are those of the assembly and then those that let go of shaders. -/
theorem build_cases (env : Environment) (p : Plan) (h : Host) :
    ∃ (log : List Call) (os : List Object),
      Sent h ((p.build env).run h).2 (log ++ os.map .destroy) ∧
      (∀ o ∈ os, ∃ q ∈ p.passes, q.LetGo ((p.build env).run h).2.owners o) ∧
      ((∃ g imageCalls nodeCalls, ((p.build env).run h).1 = .ok g ∧
          log = imageCalls ++ nodeCalls ∧ p.Assembled env g imageCalls nodeCalls) ∨
        ∃ e, ((p.build env).run h).1 = .error e ∧ Log.Reverts [] log ∧
          (p.Objects env e ∨ ¬ h.device.script.Obliging env.memory)) := by
  rw [run_build]
  rcases (ends_assemble env p h).cases with
    ⟨g, h₁, log, hRun, hSent, hDone⟩ | ⟨e, h₁, log, hRun, hSent, hFailed⟩
  · obtain ⟨os, hDrop, -, hGone⟩ := Pass.sent_dropAll p.passes h₁
    obtain ⟨imageCalls, nodeCalls, hLog, hAssembled⟩ := hDone
    rw [hRun]
    exact ⟨log, os, hSent.trans hDrop, hGone,
      .inl ⟨g, imageCalls, nodeCalls, rfl, hLog, hAssembled⟩⟩
  · obtain ⟨os, hDrop, -, hGone⟩ := Pass.sent_dropAll p.passes h₁
    rw [hRun]
    exact ⟨log, os, hSent.trans hDrop, hGone, .inr ⟨e, rfl, hFailed⟩⟩

/-- Every object made by a failed build is destroyed once, in an order that respects what relies
on what. After a success all objects made are there, and they are those of the graph. What else
is destroyed are the modules of shaders that nobody owns any more. -/
theorem build_leaves_graph_or_nothing (env : Environment) (p : Plan) (h : Host) :
    ∃ log, Sent h ((p.build env).run h).2 log ∧ (Log.made log).Nodup ∧ Log.Orderly log ∧
      (∀ o ∈ Log.destroyed log, o ∈ Log.made log ∨
        ∃ q ∈ p.passes, q.LetGo ((p.build env).run h).2.owners o) ∧
      match ((p.build env).run h).1 with
      | .error _ => ∀ o ∈ Log.made log, (Log.destroyed log).count o = 1
      | .ok g => (∀ o ∈ Log.made log, o ∉ Log.destroyed log) ∧ g.objects.Perm (Log.made log) := by
  obtain ⟨log, os, hSent, hGone, hEnd⟩ := build_cases env p h
  have hModules : ∀ o ∈ os, o.kind = .shaderModule := fun o ho => by
    obtain ⟨q, -, hLetGo⟩ := hGone o ho
    exact hLetGo.kind
  have hMade : Log.made (log ++ os.map .destroy) = Log.made log := by simp
  have hDestroyed : Log.destroyed (log ++ os.map .destroy) = Log.destroyed log ++ os := by simp
  have hNodup : (Log.made log).Nodup := hMade ▸ hSent.nodup
  refine ⟨log ++ os.map .destroy, hSent, hSent.nodup, ?_⟩
  rw [hMade, hDestroyed]
  rcases hEnd with ⟨g, imageCalls, nodeCalls, hOk, rfl, hAssembled⟩ | ⟨e, hError, hReverts, -⟩
  · have hBuilds := hAssembled.builds
    rw [hBuilds.nothingDestroyed, List.nil_append, hOk]
    refine ⟨hBuilds.orderly.append_modules hModules, fun o ho => .inr (hGone o ho), ?_,
      hBuilds.complete⟩
    intro o hMem ho
    exact hBuilds.noModules o (hBuilds.complete.mem_iff.mpr hMem) (hModules o ho)
  · have hPerm := hReverts.destroyed_perm
    refine ⟨(hReverts.orderly hNodup nofun).append_modules hModules, ?_, ?_⟩
    · intro o ho
      rcases List.mem_append.mp ho with ho | ho
      · exact .inl (hPerm.mem_iff.mp ho)
      · exact .inr (hGone o ho)
    · rw [hError]
      intro o ho
      have hAbsent : o ∉ os := fun hMem => hReverts.made_ne_shaderModule ho (hModules o hMem)
      rw [List.count_append, hPerm.count_eq, List.count_eq_one_of_mem hNodup ho,
        List.count_eq_zero.mpr hAbsent]

end FrameGraph.Plan
