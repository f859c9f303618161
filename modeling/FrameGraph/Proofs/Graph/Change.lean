import FrameGraph.Proofs.Graph.Pool

/-! # How graphs change

Operations run the hooks of a graph and destroy the objects of its passes. As long as the graph is
there, its images stay as they were built, and so do its output and the inputs of its nodes.
-/

namespace FrameGraph

set_option autoImplicit false

/-- The second node is what has become of the first. -/
structure Node.Becomes (n m : Node) : Prop where
  inputs : m.inputs = n.inputs
  objects : m.objects = n.objects ∨ m.objects = n.objects.cleared

/-- The second graph is what has become of the first. -/
structure Graph.Becomes (g f : Graph) : Prop where
  nodes : List.Forall₂ Node.Becomes g.nodes f.nodes
  images : f.images = g.images
  output : f.output = g.output
  outputState : f.outputState = g.outputState

namespace Node.Becomes

variable {n m : Node}

theorem refl (n : Node) : n.Becomes n := ⟨rfl, .inl rfl⟩

theorem ran (h : n.Becomes m) : n.Becomes m.ran := ⟨h.inputs, h.objects⟩

theorem cleared (h : n.Becomes m) : n.Becomes m.cleared := by
  have hObjects : m.objects.cleared = n.objects.cleared := by
    rcases h.objects with hSame | hCleared
    · rw [hSame]
    · rw [hCleared]
      rfl
  exact ⟨h.inputs, .inr hObjects⟩

theorem pendingInputs (h : n.Becomes m) : m.pendingInputs = n.pendingInputs := by
  rw [Node.pendingInputs, h.inputs, Node.pendingInputs]

end Node.Becomes

namespace Graph.Becomes

variable {g f : Graph}

theorem refl (g : Graph) : g.Becomes g :=
  ⟨List.forall₂_same.mpr fun n _ => .refl n, rfl, rfl, rfl⟩

theorem ran (h : g.Becomes f) : g.Becomes f.ran :=
  ⟨List.forall₂_map_right_iff.mpr (h.nodes.imp fun _ _ hNode => hNode.ran), h.images, h.output,
    h.outputState⟩

theorem cleared (h : g.Becomes f) : g.Becomes f.cleared :=
  ⟨List.forall₂_map_right_iff.mpr (h.nodes.imp fun _ _ hNode => hNode.cleared), h.images,
    h.output, h.outputState⟩

end Graph.Becomes

namespace Pool

/-- The graph at a place of the pool, if there still is one, is what has become of an earlier
one. -/
def Holds (pool : Pool) (k : Nat) (g : Graph) : Prop :=
  k < pool.length ∧ ∀ f, pool.graph? k = some f → g.Becomes f

theorem Holds.set {pool : Pool} {j k : Nat} {g : Graph} {e : Option Graph} (h : pool.Holds k g)
    (hPlace : j < pool.length) (hEntry : j = k → ∀ f, e = some f → g.Becomes f) :
    Pool.Holds (pool.set j e) k g := by
  refine ⟨by simpa using h.1, fun f hGraph => ?_⟩
  rw [graph?_set hPlace] at hGraph
  by_cases hk : k = j
  · exact hEntry hk.symm f (by rwa [if_pos hk] at hGraph)
  · exact h.2 f (by rwa [if_neg hk] at hGraph)

theorem Holds.append {pool : Pool} {k : Nat} {g : Graph} (h : pool.Holds k g)
    (e : Option Graph) : Pool.Holds (pool ++ [e]) k g := by
  refine ⟨by simpa using Nat.lt_succ_of_lt h.1, fun f hGraph => ?_⟩
  rw [graph?_append, if_neg (Nat.ne_of_lt h.1)] at hGraph
  exact h.2 f hGraph

theorem Holds.step {pool pool' : Pool} {k : Nat} {g : Graph} {op : Operation} {log : List Call}
    (h : pool.Holds k g) (hTurn : Turn pool op pool' log) : pool'.Holds k g := by
  cases hTurn with
  | built | refused => exact h.append _
  | absent | presented => exact h
  | executed hGraph =>
    refine h.set (lt_of_graph? hGraph) ?_
    rintro rfl _ ⟨⟩
    exact (h.2 _ hGraph).ran
  | destroyed hGraph =>
    refine h.set (lt_of_graph? hGraph) ?_
    rintro rfl _ ⟨⟩
    exact (h.2 _ hGraph).cleared
  | dropped hGraph _ => exact h.set (lt_of_graph? hGraph) fun _ => nofun

/-- Whatever is done with the graphs of a pool, a new graph stays what it was built as. -/
theorem run_becomes {pool pool' : Pool} {g f : Graph} {operations : List Operation} {h h' : Host}
    (hRun : (Pool.run (pool ++ [some g]) operations).run h = (pool', h'))
    (hGraph : pool'.graph? pool.length = some f) : g.Becomes f := by
  have hStart : Pool.Holds (pool ++ [some g]) pool.length g := by
    refine ⟨by simp, fun f hSame => ?_⟩
    rw [graph?_append, if_pos rfl] at hSame
    cases hSame
    exact .refl g
  obtain ⟨log, -, hHolds, -⟩ := run_invariant
    (fun _ pool' h' log => pool'.Holds pool.length g ∧ Host.Sent h h' log)
    (fun hInv hSent hTurn => ⟨hInv.1.step hTurn, hInv.2.trans hSent⟩) [] ⟨hStart, .refl h⟩
    operations
  rw [hRun] at hHolds
  exact hHolds.2 f hGraph

end Pool

end FrameGraph
