import FrameGraph.Proofs.Graph.Lifetime
import FrameGraph.Proofs.Plan.Build

/-! # Applications with several graphs

An application builds graphs and works with them in any order. A graph is known by the number of
builds before its own, and its place is empty when its build failed or after it was dropped.
-/

namespace FrameGraph

set_option autoImplicit false

open Host

inductive Operation where
  | build (env : Environment) (plan : Plan)
  | execute (graph : Nat) (buffer : CommandBuffer)
  | present (graph : Nat) (buffer : CommandBuffer) (target : Image)
  | destroy (graph : Nat)
  | drop (graph : Nat)
  deriving DecidableEq

def Operation.graph? : Operation → Option Nat
  | .build _ _ => none
  | .execute k _ => some k
  | .present k _ _ => some k
  | .destroy k => some k
  | .drop k => some k

abbrev Pool := List (Option Graph)

namespace Pool

def graph? (pool : Pool) (k : Nat) : Option Graph := pool[k]?.join

/-- A graph that is not there is passed over. -/
def withGraph (pool : Pool) (k : Nat) (work : Graph → HostM Pool) : HostM Pool :=
  match pool.graph? k with
  | none => return pool
  | some g => work g

def step (pool : Pool) : Operation → HostM Pool
  | .build env plan => do
    return pool ++ [(← plan.build env).toOption]
  | .execute k buffer => pool.withGraph k fun g => do
    return pool.set k (some (← g.execute buffer))
  | .present k buffer target => pool.withGraph k fun g => do
    g.present buffer target
    return pool
  | .destroy k => pool.withGraph k fun g => do
    return pool.set k (some (← g.destroy))
  | .drop k => pool.withGraph k fun g => do
    g.drop
    return pool.set k none

def run (pool : Pool) (operations : List Operation) : HostM Pool := operations.foldlM step pool

variable {pool : Pool} {j k : Nat} {e : Option Graph} {g : Graph}

theorem lt_of_graph? (h : pool.graph? k = some g) : k < pool.length := by
  obtain ⟨_, hGet, rfl⟩ := Option.bind_eq_some_iff.mp h
  exact (List.getElem?_eq_some_iff.mp hGet).1

theorem graph?_set (h : k < pool.length) :
    (Pool.graph? (pool.set k e) j) = if j = k then e else pool.graph? j := by
  unfold graph?
  rw [List.getElem?_set]
  by_cases hj : k = j
  · rw [if_pos hj, if_pos h, if_pos hj.symm]
    rfl
  · rw [if_neg hj, if_neg (Ne.symm hj)]

theorem graph?_append (pool : Pool) (e : Option Graph) (j : Nat) :
    Pool.graph? (pool ++ [e]) j = if j = pool.length then e else pool.graph? j := by
  unfold graph?
  rcases Nat.lt_trichotomy j pool.length with hj | rfl | hj
  · rw [List.getElem?_append_left hj, if_neg (Nat.ne_of_lt hj)]
  · simp
  · rw [List.getElem?_eq_none (by simp; omega), if_neg (Nat.ne_of_gt hj),
      List.getElem?_eq_none (Nat.le_of_lt hj)]

/-- What an operation does to the pool, and the calls it makes. -/
inductive Turn (pool : Pool) : Operation → Pool → List Call → Prop
  | built {env : Environment} {plan : Plan} {g : Graph} {log : List Call}
      (hOwned : g.images.Owned) (hObjects : g.objects.Perm (Log.made log))
      (hKinds : ∀ o ∈ g.objects, o.kind ≠ .shaderModule)
      (hDestroyed : ∀ o ∈ Log.destroyed log, o.kind = .shaderModule) :
      Turn pool (.build env plan) (pool ++ [some g]) log
  | refused {env : Environment} {plan : Plan} {log : List Call}
      (hDestroyed : ∀ o ∈ Log.destroyed log, o.kind = .shaderModule ∨ o ∈ Log.made log) :
      Turn pool (.build env plan) (pool ++ [none]) log
  | absent {op : Operation} {k : Nat} (hIndex : op.graph? = some k)
      (hGraph : pool.graph? k = none) : Turn pool op pool []
  | executed {k : Nat} {g : Graph} {buffer : CommandBuffer} (hGraph : pool.graph? k = some g) :
      Turn pool (.execute k buffer) (pool.set k (some g.ran)) (g.commands.map (.record buffer))
  | presented {k : Nat} {g : Graph} {buffer : CommandBuffer} {target : Image}
      (hGraph : pool.graph? k = some g) :
      Turn pool (.present k buffer target) pool ((g.presentation target).map (.record buffer))
  | destroyed {k : Nat} {g : Graph} (hGraph : pool.graph? k = some g) :
      Turn pool (.destroy k) (pool.set k (some g.cleared))
        ((Node.allObjects g.nodes).map .destroy)
  | dropped {k : Nat} {g : Graph} {released : List Object} (hGraph : pool.graph? k = some g)
      (hReleased : released.Perm g.images.objects) :
      Turn pool (.drop k) (pool.set k none)
        ((Node.allObjects g.nodes ++ released).map .destroy)

theorem turn_build (pool : Pool) (env : Environment) (plan : Plan) (h : Host) :
    ∃ log, Sent h ((plan.build env).run h).2 log ∧
      Turn pool (.build env plan) (pool ++ [((plan.build env).run h).1.toOption]) log := by
  obtain ⟨log, os, hSent, hGone, hEnd⟩ := Plan.build_cases env plan h
  have hModules : ∀ o ∈ os, o.kind = .shaderModule := fun o ho => by
    obtain ⟨q, -, hLetGo⟩ := hGone o ho
    exact hLetGo.kind
  refine ⟨_, hSent, ?_⟩
  rcases hEnd with ⟨g, imageCalls, nodeCalls, hOk, rfl, hAssembled⟩ | ⟨e, hError, hReverts, -⟩
  · have hBuilds := hAssembled.builds
    rw [hOk]
    refine .built hAssembled.images.owned ?_ hBuilds.noModules ?_
    · simpa using hBuilds.complete
    · intro o ho
      rw [Log.destroyed_append, hBuilds.nothingDestroyed, Log.destroyed_destroys] at ho
      exact hModules o ho
  · rw [hError]
    refine .refused fun o ho => ?_
    rw [Log.destroyed_append, Log.destroyed_destroys] at ho
    rcases List.mem_append.mp ho with ho | ho
    · exact .inr (by simpa using hReverts.destroyed_perm.mem_iff.mp ho)
    · exact .inl (hModules o ho)

theorem withGraph_turn {pool : Pool} {op : Operation} {k : Nat} {work : Graph → HostM Pool}
    (hIndex : op.graph? = some k) (h : Host)
    (hWork : ∀ g, pool.graph? k = some g → ∃ log, Sent h ((work g).run h).2 log ∧
      Turn pool op ((work g).run h).1 log) :
    ∃ log, Sent h ((pool.withGraph k work).run h).2 log ∧
      Turn pool op ((pool.withGraph k work).run h).1 log := by
  unfold withGraph
  cases hGraph : pool.graph? k with
  | none => exact ⟨[], .refl h, .absent hIndex hGraph⟩
  | some g => exact hWork g hGraph

theorem step_turn (pool : Pool) (op : Operation) (h : Host) :
    ∃ log, Sent h ((pool.step op).run h).2 log ∧ Turn pool op ((pool.step op).run h).1 log := by
  cases op with
  | build env plan => exact turn_build pool env plan h
  | execute k buffer =>
    refine withGraph_turn rfl h fun g hGraph => ?_
    exact ⟨_, g.sent_execute buffer h, .executed hGraph⟩
  | present k buffer target =>
    refine withGraph_turn rfl h fun g hGraph => ?_
    exact ⟨_, g.sent_present buffer target h, .presented hGraph⟩
  | destroy k =>
    refine withGraph_turn rfl h fun g hGraph => ?_
    have hTurn : Turn pool (.destroy k) (pool.set k (some (g.destroy.run h).1))
        ((Node.allObjects g.nodes).map .destroy) := by
      rw [g.destroy_result h]
      exact .destroyed hGraph
    exact ⟨_, g.sent_destroy h, hTurn⟩
  | drop k =>
    refine withGraph_turn rfl h fun g hGraph => ?_
    obtain ⟨released, hReleased, hSent⟩ := g.sent_drop h
    exact ⟨_, hSent, .dropped hGraph hReleased⟩

/-- What every operation preserves holds after any operations. The invariant sees the operations
and the calls so far. -/
theorem run_invariant (Inv : List Operation → Pool → Host → List Call → Prop)
    (hStep : ∀ {past pool h log op pool' h' next}, Inv past pool h log → Sent h h' next →
      Turn pool op pool' next → Inv (past ++ [op]) pool' h' (log ++ next))
    (past : List Operation) {h : Host} {log : List Call} (hStart : Inv past pool h log)
    (operations : List Operation) :
    ∃ next, Sent h ((pool.run operations).run h).2 next ∧
      Inv (past ++ operations) ((pool.run operations).run h).1 ((pool.run operations).run h).2
        (log ++ next) := by
  induction operations generalizing past pool h log with
  | nil =>
    rw [List.append_nil]
    exact ⟨[], .refl h, log.append_nil.symm ▸ hStart⟩
  | cons op operations ih =>
    obtain ⟨first, hSent, hTurn⟩ := pool.step_turn op h
    obtain ⟨rest, hRest, hInv⟩ := ih (past ++ [op]) (hStep hStart hSent hTurn)
    refine ⟨first ++ rest, hSent.trans hRest, ?_⟩
    rw [List.append_cons, ← List.append_assoc]
    exact hInv

end Pool

end FrameGraph
