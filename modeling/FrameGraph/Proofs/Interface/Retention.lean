import FrameGraph.Proofs.Interface.Sharing

/-! # A cache keeps what it has

Once a cache has a layout for some uniforms, it has one after whatever operations, and asks the
device for no other.
-/

namespace FrameGraph

set_option autoImplicit false

open Host

namespace LayoutCache

/-- The cache has a layout for the uniforms. -/
def Caches (c : LayoutCache) (stages : List StageUniforms) : Prop :=
  ∃ slots layout, StageUniforms.merge stages = .ok slots ∧ c.find? slots = some layout

section Service

variable {c later : LayoutCache} {stages : List StageUniforms} {d : Device} {log : List Call}

/-- No module is asked for. -/
theorem Served.requests_modules {r : Except ShaderError (Handle .setLayout × LayoutCache)}
    (h : c.Served stages d r log) : (Log.requests log).count (.create .shaderModule) = 0 := by
  cases h <;> rfl

/-- Nothing is asked for what the cache has. -/
theorem Served.eq_nil {r : Except ShaderError (Handle .setLayout × LayoutCache)}
    (hServed : c.Served stages d r log) (h : c.Caches stages) : log = [] := by
  obtain ⟨slots, layout, hSame, hFound⟩ := h
  cases hServed with
  | conflict | found => rfl
  | created hMerge hFind | refused hMerge hFind =>
    cases hMerge.symm.trans hSame
    cases hFind.symm.trans hFound

theorem find?_add (slots other : List ResourceSlot) (layout : Handle .setLayout) :
    (c.add slots layout).find? other = (c.find? other).or ([(slots, layout)].lookup other) :=
  List.lookup_append

theorem find?_add_self {slots : List ResourceSlot} (hFind : c.find? slots = none)
    (layout : Handle .setLayout) : (c.add slots layout).find? slots = some layout := by
  rw [find?_add, hFind, Option.none_or, List.lookup_cons_self]

/-- A cache keeps what it has. -/
theorem Turn.caches {answer : Option Answer} (h : c.Caches stages)
    (hTurn : c.Turn d answer later log) : later.Caches stages := by
  cases hTurn with
  | idle | failed => exact h
  | answered hServed =>
    cases hServed with
    | found => exact h
    | created =>
      obtain ⟨slots, layout, hMerge, hFind⟩ := h
      refine ⟨slots, layout, hMerge, ?_⟩
      rw [find?_add, hFind]
      rfl

theorem run_caches (operations : List CacheOperation) (h : c.Caches stages) (host : Host) :
    ((c.run operations).run host).1.2.Caches stages := by
  induction operations generalizing c host with
  | nil => exact h
  | cons op operations ih =>
    obtain ⟨log, -, hTurn⟩ := c.step_turn op host
    exact ih (hTurn.caches h) _

end Service

end LayoutCache

end FrameGraph
