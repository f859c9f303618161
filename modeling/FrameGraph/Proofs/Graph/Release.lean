import FrameGraph.Proofs.Graph.Custody
import FrameGraph.Proofs.Plan.Acceptance

/-! # The objects of a graph over its lifetime

Among any operations on any graphs, the objects of a graph are destroyed once: those of its
passes when the graph is first destroyed or dropped, and those of its images when it is dropped.
-/

namespace FrameGraph

set_option autoImplicit false

open Host

/-- The calls destroy the objects of passes and of images as often as the numbers say, and those
of passes first. -/
structure Graph.Releases (g : Graph) (ofPasses ofImages : Nat) (log : List Call) : Prop where
  passes : ∀ o ∈ Node.allObjects g.nodes, (Log.destroyed log).count o = ofPasses
  images : ∀ o ∈ g.images.objects, (Log.destroyed log).count o = ofImages
  passesFirst : ∀ before o after, log = before ++ .destroy o :: after → o ∈ g.images.objects →
    ∀ q ∈ Node.allObjects g.nodes, q ∈ Log.destroyed before

namespace Graph.Releases

variable {g : Graph} {m n : Nat} {log next : List Call}

theorem nil (g : Graph) : g.Releases 0 0 [] where
  passes _ _ := rfl
  images _ _ := rfl
  passesFirst before o after hSplit := by simp at hSplit

theorem passes_gone (h : g.Releases 1 n log) {o : Object} (ho : o ∈ Node.allObjects g.nodes) :
    o ∈ Log.destroyed log := by
  apply List.count_pos_iff.mp
  rw [h.passes o ho]
  exact Nat.one_pos

theorem images_gone (h : g.Releases m 1 log) {o : Object} (ho : o ∈ g.images.objects) :
    o ∈ Log.destroyed log := by
  apply List.count_pos_iff.mp
  rw [h.images o ho]
  exact Nat.one_pos

theorem idle (h : g.Releases m n log) (hNext : ∀ o ∈ g.objects, o ∉ Log.destroyed next) :
    g.Releases m n (log ++ next) where
  passes o ho := by
    rw [Log.destroyed_append, List.count_append, h.passes o ho,
      List.count_eq_zero.mpr (hNext o (List.mem_append_left _ ho))]
    rfl
  images o ho := by
    rw [Log.destroyed_append, List.count_append, h.images o ho,
      List.count_eq_zero.mpr (hNext o (List.mem_append_right _ ho))]
    rfl
  passesFirst before o after hSplit ho := by
    rcases Log.split_append hSplit with ⟨rest, hLog, -⟩ | ⟨mid, rfl, rfl⟩
    · exact h.passesFirst before o rest hLog ho
    · exact absurd (Log.mem_destroyed.mpr (by simp)) (hNext o (List.mem_append_right _ ho))

theorem end_passes (h : g.Releases 0 0 log) (hDistinct : g.objects.Nodup) :
    g.Releases 1 0 (log ++ (Node.allObjects g.nodes).map .destroy) := by
  obtain ⟨hPasses, -, hDisjoint⟩ := List.nodup_append.mp hDistinct
  constructor
  · intro o ho
    rw [Log.destroyed_append, List.count_append, h.passes o ho, Log.destroyed_destroys,
      List.count_eq_one_of_mem hPasses ho]
  · intro o ho
    rw [Log.destroyed_append, List.count_append, h.images o ho, Log.destroyed_destroys,
      List.count_eq_zero.mpr fun hMem => hDisjoint o hMem o ho rfl]
  · intro before o after hSplit ho
    rcases Log.split_append hSplit with ⟨rest, hLog, -⟩ | ⟨mid, rfl, hNext⟩
    · exact h.passesFirst before o rest hLog ho
    · obtain ⟨left, right, hObjects, -, -⟩ := Log.split_destroys hNext
      exact absurd rfl (hDisjoint o (by simp [hObjects]) o ho)

/-- The images may go in any order. -/
theorem end_images (h : g.Releases 1 0 log) (hDistinct : g.objects.Nodup)
    {released : List Object} (hReleased : released.Perm g.images.objects) :
    g.Releases 1 1 (log ++ released.map .destroy) := by
  obtain ⟨-, hImages, hDisjoint⟩ := List.nodup_append.mp hDistinct
  constructor
  · intro o ho
    rw [Log.destroyed_append, List.count_append, h.passes o ho, Log.destroyed_destroys,
      hReleased.count_eq, List.count_eq_zero.mpr fun hMem => hDisjoint o ho o hMem rfl]
  · intro o ho
    rw [Log.destroyed_append, List.count_append, h.images o ho, Log.destroyed_destroys,
      hReleased.count_eq, List.count_eq_one_of_mem hImages ho]
  · intro before o after hSplit ho q hq
    rcases Log.split_append hSplit with ⟨rest, hLog, -⟩ | ⟨mid, rfl, -⟩
    · exact h.passesFirst before o rest hLog ho q hq
    · rw [Log.destroyed_append]
      exact List.mem_append_left _ (h.passes_gone hq)

end Graph.Releases

namespace Pool

/-- What has become of a graph that was built at a place of the pool, after the operations and
calls since then. -/
structure Follows (g : Graph) (k : Nat) (operations : List Operation) (pool : Pool) (h : Host)
    (log : List Call) : Prop where
  distinct : g.objects.Nodup
  kinds : ∀ o ∈ g.objects, o.kind ≠ .shaderModule
  issued : ∀ o ∈ g.objects, o.id ≤ h.device.issued
  place : k < pool.length
  there : .drop k ∉ operations → ∃ f, pool.graph? k = some f ∧ f.images = g.images ∧
    Node.allObjects f.nodes = if .destroy k ∈ operations then [] else Node.allObjects g.nodes
  gone : .drop k ∈ operations → pool.graph? k = none
  releases : g.Releases (if .destroy k ∈ operations ∨ .drop k ∈ operations then 1 else 0)
    (if .drop k ∈ operations then 1 else 0) log

namespace Follows

variable {g f : Graph} {k : Nat} {operations : List Operation} {pool pool' : Pool} {h h' : Host}
  {log past next : List Call} {op : Operation}

theorem issued_after (hFollows : Follows g k operations pool h log) (hSent : Sent h h' next) :
    ∀ o ∈ g.objects, o.id ≤ h'.device.issued := fun o ho =>
  Nat.le_trans (hFollows.issued o ho) hSent.issued_mono

/-- An object of the graph has been destroyed or is still there. -/
theorem destroyed_or_there (hFollows : Follows g k operations pool h log) {o : Object}
    (ho : o ∈ g.objects) :
    o ∈ Log.destroyed log ∨ ∃ f, pool.graph? k = some f ∧ o ∈ f.objects := by
  by_cases hDrop : .drop k ∈ operations
  · have hReleases := hFollows.releases
    rw [if_pos (.inr hDrop), if_pos hDrop] at hReleases
    rcases List.mem_append.mp ho with ho | ho
    · exact .inl (hReleases.passes_gone ho)
    · exact .inl (hReleases.images_gone ho)
  · obtain ⟨f, hGraph, hImages, hPasses⟩ := hFollows.there hDrop
    rcases List.mem_append.mp ho with ho | ho
    · by_cases hDestroy : .destroy k ∈ operations
      · have hReleases := hFollows.releases
        rw [if_pos (.inl hDestroy)] at hReleases
        exact .inl (hReleases.passes_gone ho)
      · rw [if_neg hDestroy] at hPasses
        exact .inr ⟨f, hGraph, List.mem_append_left _ (hPasses ▸ ho)⟩
    · exact .inr ⟨f, hGraph, List.mem_append_right _ (hImages ▸ ho)⟩

theorem not_destroyed_of_ne (hFollows : Follows g k operations pool h log)
    (hSound : Sound pool h (past ++ log)) (hSent : Sent h h' next)
    (hTurn : Turn pool op pool' next) (hIndex : op.graph? ≠ some k) {o : Object}
    (ho : o ∈ g.objects) : o ∉ Log.destroyed next := by
  have hOther : ∀ j f, j ≠ k → pool.graph? j = some f → o ∉ f.objects := by
    intro j f hj hGraph hMem
    rcases hFollows.destroyed_or_there ho with hGone | ⟨f', hGraph', hMem'⟩
    · apply (hSound.live hGraph hMem).there
      rw [Log.destroyed_append]
      exact List.mem_append_right _ hGone
    · exact hSound.apart hj hGraph hGraph' hMem hMem'
  intro hDestroyed
  cases hTurn with
  | built _ _ _ hModules => exact hFollows.kinds o ho (hModules o hDestroyed)
  | refused hModules =>
    rcases hModules o hDestroyed with hKind | hMade
    · exact hFollows.kinds o ho hKind
    · have := hFollows.issued o ho
      have := hSent.issued_lt hMade
      omega
  | absent => cases hDestroyed
  | executed => simp at hDestroyed
  | presented => simp at hDestroyed
  | destroyed hGraph =>
    rw [Log.destroyed_destroys] at hDestroyed
    exact hOther _ _ (fun hk => hIndex (congrArg some hk)) hGraph
      (List.mem_append_left _ hDestroyed)
  | dropped hGraph hReleased =>
    rw [Log.destroyed_destroys] at hDestroyed
    exact hOther _ _ (fun hk => hIndex (congrArg some hk)) hGraph
      ((hReleased.append_left _).mem_iff.mp hDestroyed)

/-- The graph keeps what it has. -/
theorem keep (hFollows : Follows g k operations pool h log) (hSent : Sent h h' next)
    (hDestroy : op ≠ .destroy k) (hDrop : op ≠ .drop k)
    (hNext : ∀ o ∈ g.objects, o ∉ Log.destroyed next) (hPlace : pool.length ≤ pool'.length)
    (hThere : ∀ f, pool.graph? k = some f → ∃ f', pool'.graph? k = some f' ∧
      f'.images = f.images ∧ Node.allObjects f'.nodes = Node.allObjects f.nodes)
    (hGone : pool.graph? k = none → pool'.graph? k = none) :
    Follows g k (operations ++ [op]) pool' h' (log ++ next) := by
  have hDestroyMem : Operation.destroy k ∈ operations ++ [op] ↔ .destroy k ∈ operations := by
    simp [Ne.symm hDestroy]
  have hDropMem : Operation.drop k ∈ operations ++ [op] ↔ .drop k ∈ operations := by
    simp [Ne.symm hDrop]
  refine ⟨hFollows.distinct, hFollows.kinds, hFollows.issued_after hSent,
    Nat.lt_of_lt_of_le hFollows.place hPlace, ?_, ?_, ?_⟩
  · rw [hDropMem]
    intro hDropped
    obtain ⟨f, hGraph, hImages, hPasses⟩ := hFollows.there hDropped
    obtain ⟨f', hGraph', hImages', hPasses'⟩ := hThere f hGraph
    refine ⟨f', hGraph', hImages'.trans hImages, ?_⟩
    simp only [hDestroyMem, hPasses', hPasses]
  · rw [hDropMem]
    exact fun hDropped => hGone (hFollows.gone hDropped)
  · simp only [hDestroyMem, hDropMem]
    exact hFollows.releases.idle hNext

/-- A graph that is not there any more was dropped, and nothing changes for it. -/
theorem stay_gone (hFollows : Follows g k operations pool h log) (hSent : Sent h h' [])
    (hGraph : pool.graph? k = none) :
    Follows g k (operations ++ [op]) pool h' (log ++ []) := by
  have hDropped : .drop k ∈ operations := by
    by_contra hDrop
    obtain ⟨f, hSome, -⟩ := hFollows.there hDrop
    rw [hGraph] at hSome
    cases hSome
  have hMem : Operation.drop k ∈ operations ++ [op] := List.mem_append_left _ hDropped
  refine ⟨hFollows.distinct, hFollows.kinds, hFollows.issued_after hSent, hFollows.place,
    fun h => absurd hMem h, fun _ => hGraph, ?_⟩
  have hReleases := hFollows.releases
  rw [if_pos (.inr hDropped), if_pos hDropped] at hReleases
  rw [if_pos (.inr hMem), if_pos hMem, List.append_nil]
  exact hReleases

/-- The objects of passes go with the graph in the pool, or went before. -/
theorem end_passes (hFollows : Follows g k operations pool h log)
    (hGraph : pool.graph? k = some f) :
    .drop k ∉ operations ∧ f.images = g.images ∧
      g.Releases 1 0 (log ++ (Node.allObjects f.nodes).map .destroy) := by
  have hDrop : .drop k ∉ operations := fun hMem => by
    have hNone := hFollows.gone hMem
    rw [hGraph] at hNone
    cases hNone
  obtain ⟨f', hGraph', hImages, hPasses⟩ := hFollows.there hDrop
  obtain rfl : f = f' := Option.some.inj (hGraph.symm.trans hGraph')
  refine ⟨hDrop, hImages, ?_⟩
  have hReleases := hFollows.releases
  by_cases hDestroy : .destroy k ∈ operations
  · rw [if_pos hDestroy] at hPasses
    rw [if_pos (.inl hDestroy), if_neg hDrop] at hReleases
    rw [hPasses]
    exact hReleases.idle nofun
  · rw [if_neg hDestroy] at hPasses
    rw [if_neg (not_or.mpr ⟨hDestroy, hDrop⟩), if_neg hDrop] at hReleases
    rw [hPasses]
    exact hReleases.end_passes hFollows.distinct

theorem place_set (hFollows : Follows g k operations pool h log) (e : Option Graph) :
    k < (pool.set k e).length := by
  rw [List.length_set]
  exact hFollows.place

theorem destroy (hFollows : Follows g k operations pool h log) (hGraph : pool.graph? k = some f)
    (hSent : Sent h h' ((Node.allObjects f.nodes).map .destroy)) :
    Follows g k (operations ++ [.destroy k]) (pool.set k (some f.cleared)) h'
      (log ++ (Node.allObjects f.nodes).map .destroy) := by
  obtain ⟨hDrop, hImages, hReleases⟩ := hFollows.end_passes hGraph
  have hDropMem : Operation.drop k ∉ operations ++ [.destroy k] := by simp [hDrop]
  have hDestroyMem : Operation.destroy k ∈ operations ++ [.destroy k] := by simp
  refine ⟨hFollows.distinct, hFollows.kinds, hFollows.issued_after hSent,
    hFollows.place_set _, ?_, fun h => absurd h hDropMem, ?_⟩
  · intro _
    refine ⟨f.cleared, ?_, hImages, ?_⟩
    · rw [graph?_set hFollows.place, if_pos rfl]
    · rw [if_pos hDestroyMem]
      exact Node.allObjects_cleared f.nodes
  · rw [if_pos (.inl hDestroyMem), if_neg hDropMem]
    exact hReleases

theorem drop (hFollows : Follows g k operations pool h log) (hGraph : pool.graph? k = some f)
    {released : List Object} (hReleased : released.Perm f.images.objects)
    (hSent : Sent h h' ((Node.allObjects f.nodes ++ released).map .destroy)) :
    Follows g k (operations ++ [.drop k]) (pool.set k none) h'
      (log ++ (Node.allObjects f.nodes ++ released).map .destroy) := by
  obtain ⟨-, hImages, hReleases⟩ := hFollows.end_passes hGraph
  have hDropMem : Operation.drop k ∈ operations ++ [.drop k] := by simp
  refine ⟨hFollows.distinct, hFollows.kinds, hFollows.issued_after hSent,
    hFollows.place_set _, fun h => absurd hDropMem h, ?_, ?_⟩
  · intro _
    rw [graph?_set hFollows.place, if_pos rfl]
  · rw [if_pos (.inr hDropMem), if_pos hDropMem, List.map_append, ← List.append_assoc]
    exact hReleases.end_images hFollows.distinct (hImages ▸ hReleased)

theorem step_own (hFollows : Follows g k operations pool h log) (hSent : Sent h h' next)
    (hTurn : Turn pool op pool' next) (hIndex : op.graph? = some k) :
    Follows g k (operations ++ [op]) pool' h' (log ++ next) := by
  cases hTurn with
  | built => cases hIndex
  | refused => cases hIndex
  | absent hIndex' hGraph =>
    obtain rfl := Option.some.inj (hIndex.symm.trans hIndex')
    exact hFollows.stay_gone hSent hGraph
  | executed hGraph =>
    obtain rfl := Option.some.inj hIndex
    refine hFollows.keep hSent nofun nofun (by simp) (by simp) ?_ ?_
    · intro f hf
      obtain rfl := Option.some.inj (hGraph.symm.trans hf)
      refine ⟨Graph.ran _, ?_, rfl, Node.allObjects_ran _⟩
      rw [graph?_set hFollows.place, if_pos rfl]
    · intro hNone
      rw [hGraph] at hNone
      cases hNone
  | presented hGraph =>
    exact hFollows.keep hSent nofun nofun (by simp) (Nat.le_refl _)
      (fun f hf => ⟨f, hf, rfl, rfl⟩) id
  | destroyed hGraph =>
    obtain rfl := Option.some.inj hIndex
    exact hFollows.destroy hGraph hSent
  | dropped hGraph hReleased =>
    obtain rfl := Option.some.inj hIndex
    exact hFollows.drop hGraph hReleased hSent

/-- An operation on another graph leaves this one in its place. -/
theorem step_other (hFollows : Follows g k operations pool h log)
    (hSound : Sound pool h (past ++ log)) (hSent : Sent h h' next)
    (hTurn : Turn pool op pool' next) (hIndex : op.graph? ≠ some k) :
    Follows g k (operations ++ [op]) pool' h' (log ++ next) := by
  have hNext : ∀ o ∈ g.objects, o ∉ Log.destroyed next := fun o ho =>
    hFollows.not_destroyed_of_ne hSound hSent hTurn hIndex ho
  have hPool : pool.length ≤ pool'.length ∧ pool'.graph? k = pool.graph? k := by
    have hPlace := hFollows.place
    cases hTurn with
    | built => exact ⟨by simp, by rw [graph?_append, if_neg (Nat.ne_of_lt hPlace)]⟩
    | refused => exact ⟨by simp, by rw [graph?_append, if_neg (Nat.ne_of_lt hPlace)]⟩
    | absent => exact ⟨Nat.le_refl _, rfl⟩
    | presented => exact ⟨Nat.le_refl _, rfl⟩
    | executed hGraph | destroyed hGraph | dropped hGraph =>
      refine ⟨by simp, ?_⟩
      rw [graph?_set (lt_of_graph? hGraph), if_neg fun hk => hIndex (congrArg some hk.symm)]
  obtain ⟨hLength, hSame⟩ := hPool
  refine hFollows.keep hSent ?_ ?_ hNext hLength ?_ ?_
  · rintro rfl
    exact hIndex rfl
  · rintro rfl
    exact hIndex rfl
  · intro f hf
    exact ⟨f, hSame.trans hf, rfl, rfl⟩
  · exact hSame.trans

theorem step (hFollows : Follows g k operations pool h log)
    (hSound : Sound pool h (past ++ log)) (hSent : Sent h h' next)
    (hTurn : Turn pool op pool' next) :
    Follows g k (operations ++ [op]) pool' h' (log ++ next) := by
  by_cases hIndex : op.graph? = some k
  · exact hFollows.step_own hSent hTurn hIndex
  · exact hFollows.step_other hSound hSent hTurn hIndex

theorem start {env : Environment} {plan : Plan} (hSent : Sent h h' next)
    (hTurn : Turn pool (.build env plan) (pool ++ [some g]) next) :
    Follows g pool.length [] (pool ++ [some g]) h' [] := by
  generalize hPool : pool ++ [some g] = built at hTurn
  cases hTurn with
  | built hOwned hObjects hKinds =>
    obtain ⟨-, ⟨⟩⟩ := List.append_inj' hPool rfl
    refine ⟨hObjects.nodup_iff.mpr hSent.nodup, hKinds, ?_, by simp, ?_, nofun, .nil g⟩
    · intro o ho
      exact hSent.le_issued (hObjects.mem_iff.mp ho)
    · intro _
      exact ⟨g, by rw [graph?_append, if_pos rfl], rfl, rfl⟩
  | refused =>
    obtain ⟨-, ⟨⟩⟩ := List.append_inj' hPool rfl
  | absent hIndex => cases hIndex

/-- Only the end of the graph destroys what it owns. -/
theorem not_destroyed (hFollows : Follows g k operations pool h log)
    (hSound : Sound pool h (past ++ log)) (hSent : Sent h h' next)
    (hTurn : Turn pool op pool' next) (hDestroy : op ≠ .destroy k) (hDrop : op ≠ .drop k)
    {o : Object} (ho : o ∈ g.objects) : o ∉ Log.destroyed next := by
  by_cases hIndex : op.graph? = some k
  · cases hTurn with
    | built => cases hIndex
    | refused => cases hIndex
    | absent => exact nofun
    | executed => simp
    | presented => simp
    | destroyed =>
      cases hIndex
      exact absurd rfl hDestroy
    | dropped =>
      cases hIndex
      exact absurd rfl hDrop
  · exact hFollows.not_destroyed_of_ne hSound hSent hTurn hIndex ho

theorem destroy_again (hFollows : Follows g k operations pool h log)
    (hEnded : .destroy k ∈ operations ∨ .drop k ∈ operations)
    (hTurn : Turn pool (.destroy k) pool' next) : next = [] := by
  cases hTurn with
  | absent => rfl
  | destroyed hGraph =>
    obtain ⟨hDrop, -, -⟩ := hFollows.end_passes hGraph
    obtain ⟨f, hGraph', -, hPasses⟩ := hFollows.there hDrop
    cases hGraph.symm.trans hGraph'
    rw [hPasses, if_pos (hEnded.resolve_right hDrop)]
    rfl

end Follows

/-- A recorded command speaks of what is there, and of the image that is presented to. -/
theorem Sound.recorded {pool pool' : Pool} {h : Host} {log next : List Call} {op : Operation}
    {k : Nat} (hSound : Sound pool h log) (hTurn : Turn pool op pool' next)
    (hIndex : op.graph? = some k) {buffer : CommandBuffer} {c : Command}
    (hRecord : .record buffer c ∈ next) {o : Object} (ho : o ∈ c.objects) :
    o ∉ Log.destroyed log ∨
      ∃ target, op = .present k buffer target ∧ o = target.handle.object := by
  cases hTurn with
  | built => cases hIndex
  | refused => cases hIndex
  | absent => cases hRecord
  | executed hGraph =>
    obtain ⟨d, hd, ⟨⟩⟩ := List.mem_map.mp hRecord
    have hOwned := Graph.commands_objects (hSound.owned hGraph) hd ho
    exact .inl (hSound.live hGraph hOwned).there
  | presented hGraph =>
    obtain ⟨d, hd, ⟨⟩⟩ := List.mem_map.mp hRecord
    cases hIndex
    rcases Graph.presentation_objects (hSound.owned hGraph) hd ho with hOwned | rfl
    · exact .inl (hSound.live hGraph hOwned).there
    · exact .inr ⟨_, rfl, rfl⟩
  | destroyed =>
    obtain ⟨_, -, ⟨⟩⟩ := List.mem_map.mp hRecord
  | dropped =>
    obtain ⟨_, -, ⟨⟩⟩ := List.mem_map.mp hRecord

/-- A graph is built after some operations, and more operations follow. Its place in the pool is
the number of builds before its own. Of the calls since the build, those that destroy its objects
are the ones that the operations on it ask for; and whatever comes next destroys none of them
before its time, destroys nothing twice, and records no command that speaks of an object that is
gone. -/
theorem graph_released_once (h : Host) (before after : List Operation) (env : Environment)
    (plan : Plan) {pool pool' : Pool} {g : Graph} {h₁ h₂ h₃ : Host}
    (hBefore : (Pool.run [] before).run h = (pool, h₁))
    (hBuilt : (plan.build env).run h₁ = (.ok g, h₂))
    (hAfter : (Pool.run (pool ++ [some g]) after).run h₂ = (pool', h₃)) :
    ∃ past log, Sent h h₂ past ∧ Sent h₂ h₃ log ∧ (∀ o ∈ g.objects, o ∉ Log.destroyed past) ∧
      g.Releases (if .destroy pool.length ∈ after ∨ .drop pool.length ∈ after then 1 else 0)
        (if .drop pool.length ∈ after then 1 else 0) log ∧
      ∀ op, ∃ next, Sent h₃ ((pool'.step op).run h₃).2 next ∧
        (op ≠ .destroy pool.length → op ≠ .drop pool.length →
          ∀ o ∈ g.objects, o ∉ Log.destroyed next) ∧
        (.destroy pool.length ∈ after ∨ .drop pool.length ∈ after →
          op = .destroy pool.length → next = []) ∧
        ∀ k buffer c, op.graph? = some k → .record buffer c ∈ next → ∀ o ∈ c.objects,
          o ∉ Log.destroyed (past ++ log) ∨
            ∃ target, op = .present k buffer target ∧ o = target.handle.object := by
  obtain ⟨first, hFirst, hSoundFirst⟩ := run_invariant (fun _ => Sound)
    (fun hSound hSent hTurn => hSound.step hSent hTurn) [] (Sound.empty h) before
  rw [hBefore] at hFirst hSoundFirst
  obtain ⟨build, hBuild, hTurn⟩ := turn_build pool env plan h₁
  rw [hBuilt] at hBuild hTurn
  have hStart : Sound (pool ++ [some g]) h₂ (first ++ build ++ []) ∧
      Follows g pool.length [] (pool ++ [some g]) h₂ [] := by
    rw [List.append_nil]
    exact ⟨hSoundFirst.step hBuild hTurn, .start hBuild hTurn⟩
  -- What becomes of the graph depends on no other graph having its objects, so both invariants
  -- are carried along together.
  have hStep : ∀ {operations pool' h log op pool'' h' next},
      (Sound pool' h (first ++ build ++ log) ∧ Follows g pool.length operations pool' h log) →
      Sent h h' next → Turn pool' op pool'' next →
        Sound pool'' h' (first ++ build ++ (log ++ next)) ∧
          Follows g pool.length (operations ++ [op]) pool'' h' (log ++ next) := by
    rintro operations pool' h log op pool'' h' next ⟨hSound, hFollows⟩ hSent hTurn
    rw [← List.append_assoc]
    exact ⟨hSound.step hSent hTurn, hFollows.step hSound hSent hTurn⟩
  obtain ⟨log, hLog, hSound, hFollows⟩ := run_invariant (fun operations pool' h log =>
    Sound pool' h (first ++ build ++ log) ∧ Follows g pool.length operations pool' h log) hStep []
      hStart after
  rw [hAfter] at hLog hSound hFollows
  refine ⟨first ++ build, log, hFirst.trans hBuild, hLog, ?_, hFollows.releases, ?_⟩
  · intro o ho
    have hGraph : Pool.graph? (pool ++ [some g]) pool.length = some g := by
      rw [graph?_append, if_pos rfl]
    exact ((hSoundFirst.step hBuild hTurn).live hGraph ho).there
  · intro op
    obtain ⟨next, hNext, hTurn⟩ := pool'.step_turn op h₃
    refine ⟨next, hNext, ?_, ?_, ?_⟩
    · intro hDestroy hDrop o ho
      exact hFollows.not_destroyed hSound hNext hTurn hDestroy hDrop ho
    · rintro hEnded rfl
      exact hFollows.destroy_again hEnded hTurn
    · intro k buffer c hIndex hRecord o ho
      exact hSound.recorded hTurn hIndex hRecord ho

open TwoPasses in
theorem two_passes_released_once : ∃ g h₁ log,
    (draft.plan.build environment).run host = (.ok g, h₁) ∧
      Sent h₁ ((Pool.run [some g] [.execute 0 ⟨1⟩, .destroy 0, .execute 0 ⟨1⟩, .drop 0]).run h₁).2
        log ∧
      g.Releases 1 1 log := by
  obtain ⟨g, h₁, hBuilt, -⟩ := TwoPasses.builds
  obtain ⟨past, log, -, hSent, -, hReleases, -⟩ := graph_released_once host []
    [.execute 0 ⟨1⟩, .destroy 0, .execute 0 ⟨1⟩, .drop 0] environment draft.plan rfl hBuilt rfl
  exact ⟨g, h₁, log, hBuilt, hSent, by simpa using hReleases⟩

end Pool

end FrameGraph
