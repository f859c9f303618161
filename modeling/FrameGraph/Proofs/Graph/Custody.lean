import FrameGraph.Proofs.Graph.Pool

/-! # Who owns what

Every object of a pool has one owner, and stays as long as its graph needs it. So the objects of
a graph go once, when the graph says so, and no command speaks of an object that is gone.
-/

namespace FrameGraph

set_option autoImplicit false

open Host

namespace Graph

theorem objects_ran (g : Graph) : g.ran.objects = g.objects :=
  congrArg (· ++ g.images.objects) (Node.allObjects_ran g.nodes)

theorem objects_cleared (g : Graph) : g.cleared.objects = g.images.objects :=
  congrArg (· ++ g.images.objects) (Node.allObjects_cleared g.nodes)

end Graph

namespace Pool

variable {pool pool' : Pool} {h h' : Host} {log next : List Call} {e : Option Graph} {k : Nat}

/-- The object of a graph is there. -/
structure Live (h : Host) (log : List Call) (o : Object) : Prop where
  kind : o.kind ≠ .shaderModule
  issued : o.id ≤ h.device.issued
  there : o ∉ Log.destroyed log

/-- All objects of the graphs are there and have one owner each, after the calls of `log`. -/
structure Sound (pool : Pool) (h : Host) (log : List Call) : Prop where
  owned : ∀ {k g}, pool.graph? k = some g → g.images.Owned
  distinct : ∀ {k g}, pool.graph? k = some g → g.objects.Nodup
  live : ∀ {k g o}, pool.graph? k = some g → o ∈ g.objects → Live h log o
  apart : ∀ {j k f g o}, j ≠ k → pool.graph? j = some f → pool.graph? k = some g →
    o ∈ f.objects → o ∉ g.objects
  past : ∀ {o}, o ∈ Log.destroyed log → o.kind = .shaderModule ∨ o.id ≤ h.device.issued

theorem Sound.empty (h : Host) : Sound [] h [] where
  owned := nofun
  distinct := nofun
  live := nofun
  apart := nofun
  past := nofun

/-- One place of the pool changes. What the calls destroy was owned by nobody else. -/
theorem Sound.update (hSound : Sound pool h log) (hSent : Sent h h' next)
    (hPool : ∀ j, pool'.graph? j = if j = k then e else pool.graph? j)
    (hOwned : ∀ g, e = some g → g.images.Owned) (hDistinct : ∀ g, e = some g → g.objects.Nodup)
    (hLive : ∀ g, e = some g → ∀ o ∈ g.objects, Live h' (log ++ next) o)
    (hApart : ∀ g, e = some g → ∀ o ∈ g.objects, ∀ j f, j ≠ k → pool.graph? j = some f →
      o ∉ f.objects)
    (hOthers : ∀ o ∈ Log.destroyed next, ∀ j f, j ≠ k → pool.graph? j = some f → o ∉ f.objects)
    (hPast : ∀ o ∈ Log.destroyed next, o.kind = .shaderModule ∨ o.id ≤ h'.device.issued) :
    Sound pool' h' (log ++ next) := by
  have hEntry : ∀ {j g}, pool'.graph? j = some g →
      (j = k ∧ e = some g) ∨ (j ≠ k ∧ pool.graph? j = some g) := by
    intro j g hGraph
    rw [hPool] at hGraph
    by_cases hj : j = k
    · exact .inl ⟨hj, by rwa [if_pos hj] at hGraph⟩
    · exact .inr ⟨hj, by rwa [if_neg hj] at hGraph⟩
  have hIssued := hSent.issued_mono
  constructor
  · intro j g hGraph
    rcases hEntry hGraph with ⟨-, he⟩ | ⟨-, hOld⟩
    · exact hOwned g he
    · exact hSound.owned hOld
  · intro j g hGraph
    rcases hEntry hGraph with ⟨-, he⟩ | ⟨-, hOld⟩
    · exact hDistinct g he
    · exact hSound.distinct hOld
  · intro j g o hGraph ho
    rcases hEntry hGraph with ⟨-, he⟩ | ⟨hj, hOld⟩
    · exact hLive g he o ho
    · obtain ⟨hKind, hId, hThere⟩ := hSound.live hOld ho
      refine ⟨hKind, Nat.le_trans hId hIssued, fun hMem => ?_⟩
      rcases List.mem_append.mp (Log.destroyed_append log next ▸ hMem) with hMem | hMem
      · exact hThere hMem
      · exact hOthers o hMem j g hj hOld ho
  · intro i j f g o hij hf hg ho
    rcases hEntry hf with ⟨rfl, he⟩ | ⟨hi, hf⟩
    · rcases hEntry hg with ⟨rfl, -⟩ | ⟨hj, hg⟩
      · exact absurd rfl hij
      · exact hApart f he o ho j g hj hg
    · rcases hEntry hg with ⟨rfl, he⟩ | ⟨-, hg⟩
      · exact fun ho' => hApart g he o ho' i f hi hf ho
      · exact hSound.apart hij hf hg ho
  · intro o ho
    rcases List.mem_append.mp (Log.destroyed_append log next ▸ ho) with ho | ho
    · exact (hSound.past ho).imp_right fun hId => Nat.le_trans hId hIssued
    · exact hPast o ho

/-- A graph gives up objects, and keeps its images if it stays. -/
theorem Sound.shrink (hSound : Sound pool h log) (hSent : Sent h h' next) {g : Graph}
    (hGraph : pool.graph? k = some g) (hImages : ∀ f, e = some f → f.images = g.images)
    (hObjects : ∀ f, e = some f → f.objects.Sublist g.objects)
    (hDestroyed : ∀ o ∈ Log.destroyed next, o ∈ g.objects ∧ ∀ f, e = some f → o ∉ f.objects) :
    Sound (pool.set k e) h' (log ++ next) := by
  have hIssued := hSent.issued_mono
  refine hSound.update hSent (fun _ => graph?_set (lt_of_graph? hGraph)) ?_ ?_ ?_ ?_ ?_ ?_
  · intro f hf
    rw [ImageMap.Owned, hImages f hf]
    exact hSound.owned hGraph
  · intro f hf
    exact (hSound.distinct hGraph).sublist (hObjects f hf)
  · intro f hf o ho
    obtain ⟨hKind, hId, hThere⟩ := hSound.live hGraph ((hObjects f hf).subset ho)
    refine ⟨hKind, Nat.le_trans hId hIssued, fun hMem => ?_⟩
    rcases List.mem_append.mp (Log.destroyed_append log next ▸ hMem) with hMem | hMem
    · exact hThere hMem
    · exact (hDestroyed o hMem).2 f hf ho
  · intro f hf o ho j f' hj hf'
    exact hSound.apart (Ne.symm hj) hGraph hf' ((hObjects f hf).subset ho)
  · intro o ho j f hj hf
    exact hSound.apart (Ne.symm hj) hGraph hf (hDestroyed o ho).1
  · intro o ho
    exact .inr (Nat.le_trans (hSound.live hGraph (hDestroyed o ho).1).issued hIssued)

theorem Sound.built (hSound : Sound pool h log) (hSent : Sent h h' next) {g : Graph}
    (hOwned : g.images.Owned) (hObjects : g.objects.Perm (Log.made next))
    (hKinds : ∀ o ∈ g.objects, o.kind ≠ .shaderModule)
    (hDestroyed : ∀ o ∈ Log.destroyed next, o.kind = .shaderModule) :
    Sound (pool ++ [some g]) h' (log ++ next) := by
  have hNew : ∀ o ∈ g.objects, h.device.issued < o.id := fun o ho =>
    hSent.issued_lt (hObjects.mem_iff.mp ho)
  refine hSound.update hSent (graph?_append pool (some g)) ?_ ?_ ?_ ?_ ?_ ?_
  · rintro _ ⟨⟩
    exact hOwned
  · rintro _ ⟨⟩
    exact hObjects.nodup_iff.mpr hSent.nodup
  · rintro _ ⟨⟩ o ho
    refine ⟨hKinds o ho, hSent.le_issued (hObjects.mem_iff.mp ho), fun hMem => ?_⟩
    rcases List.mem_append.mp (Log.destroyed_append log next ▸ hMem) with hMem | hMem
    · rcases hSound.past hMem with hKind | hId
      · exact hKinds o ho hKind
      · have := hNew o ho
        omega
    · exact hKinds o ho (hDestroyed o hMem)
  · rintro _ ⟨⟩ o ho j f - hf ho'
    have := (hSound.live hf ho').issued
    have := hNew o ho
    omega
  · intro o ho j f _ hf ho'
    exact (hSound.live hf ho').kind (hDestroyed o ho)
  · intro o ho
    exact .inl (hDestroyed o ho)

theorem Sound.refused (hSound : Sound pool h log) (hSent : Sent h h' next)
    (hDestroyed : ∀ o ∈ Log.destroyed next, o.kind = .shaderModule ∨ o ∈ Log.made next) :
    Sound (pool ++ [none]) h' (log ++ next) := by
  refine hSound.update hSent (graph?_append pool none) nofun nofun nofun nofun ?_ ?_
  · intro o ho j f _ hf ho'
    rcases hDestroyed o ho with hKind | hMade
    · exact (hSound.live hf ho').kind hKind
    · have := (hSound.live hf ho').issued
      have := hSent.issued_lt hMade
      omega
  · intro o ho
    exact (hDestroyed o ho).imp_right hSent.le_issued

theorem Sound.idle (hSound : Sound pool h log) (hSent : Sent h h' next)
    (hMade : Log.made next = []) (hDestroyed : Log.destroyed next = []) :
    Sound pool h' (log ++ next) := by
  have hIssued : h'.device.issued = h.device.issued := by
    rw [hSent.issued, hMade]
    rfl
  refine ⟨hSound.owned, hSound.distinct, ?_, hSound.apart, ?_⟩
  · intro j g o hGraph ho
    obtain ⟨hKind, hId, hThere⟩ := hSound.live hGraph ho
    exact ⟨hKind, hIssued ▸ hId, by simpa [hDestroyed] using hThere⟩
  · intro o ho
    rw [hIssued]
    exact hSound.past (by simpa [hDestroyed] using ho)

theorem Sound.step (hSound : Sound pool h log) (hSent : Sent h h' next) {op : Operation}
    (hTurn : Turn pool op pool' next) : Sound pool' h' (log ++ next) := by
  cases hTurn with
  | built hOwned hObjects hKinds hDestroyed =>
    exact hSound.built hSent hOwned hObjects hKinds hDestroyed
  | refused hDestroyed => exact hSound.refused hSent hDestroyed
  | absent => exact hSound.idle hSent rfl rfl
  | executed hGraph =>
    refine hSound.shrink hSent hGraph ?_ ?_ ?_
    · rintro _ ⟨⟩
      rfl
    · rintro _ ⟨⟩
      rw [Graph.objects_ran]
    · simp
  | presented hGraph => exact hSound.idle hSent (by simp) (by simp)
  | destroyed hGraph =>
    refine hSound.shrink hSent hGraph ?_ ?_ ?_
    · rintro _ ⟨⟩
      rfl
    · rintro _ ⟨⟩
      rw [Graph.objects_cleared]
      exact List.sublist_append_right _ _
    · intro o ho
      rw [Log.destroyed_destroys] at ho
      refine ⟨List.mem_append_left _ ho, ?_⟩
      rintro _ ⟨⟩ ho'
      rw [Graph.objects_cleared] at ho'
      exact List.disjoint_of_nodup_append (hSound.distinct hGraph) ho ho'
  | dropped hGraph hReleased =>
    refine hSound.shrink hSent hGraph nofun nofun fun o ho => ?_
    rw [Log.destroyed_destroys] at ho
    exact ⟨(hReleased.append_left _).mem_iff.mp ho, nofun⟩

end Pool

end FrameGraph
