import FrameGraph.Proofs.Shader.Footprint
import FrameGraph.Session.Run
import Mathlib.Data.List.Perm.Basic

/-! # Applications with several shaders

An application makes shaders and shares them between passes, which it collects in drafts, plans
and builds. Whatever it holds that way holds shaders, and it lets go of its holdings in any order.
A holding is known by its place in the list, where the latest comes first.
-/

namespace FrameGraph

set_option autoImplicit false

open Host

inductive Holding where
  | handle (shader : Shader)
  | pass (pass : Pass)
  | draft (draft : Draft)
  | plan (plan : Plan)
  deriving DecidableEq

namespace Holding

/-- The shaders of a holding, each as often as the holding owns it. -/
def shaders : Holding → List Shader
  | .handle s => [s]
  | .pass p => p.shaders
  | .draft d => d.passes.flatMap Pass.shaders
  | .plan p => p.passes.flatMap Pass.shaders

def drop : Holding → HostM Unit
  | .handle s => s.release
  | .pass p => p.drop
  | .draft d => d.drop
  | .plan p => p.drop

end Holding

/-- What an application holds, all shaders that it made so far, and its cache of layouts. -/
structure Workshop where
  holdings : List Holding := []
  shaders : List Shader := []
  cache : LayoutCache := {}

namespace Workshop

inductive Operation where
  | create (vertex fragment : ShaderSource)
  | adopt (vertexModule fragmentModule : Option (Handle .shaderModule))
      (attributes : List Attribute) (setLayout : Option (Handle .setLayout))
  /-- Takes a handle of a shader, which is known by its place among all that are held. -/
  | share (shader : Nat)
  | begin (name : String)
  | declare (pass : Nat) (declaration : Declaration Nat)
  | compile (pass : Nat) (images : ImageMap)
  | draft (output : Name)
  /-- Moves a pass to the end of a draft, which is known by its place among the other holdings. -/
  | add (pass draft : Nat)
  | plan (draft : Nat)
  | amend (plan : Nat) (edit : PlanEdit)
  /-- Takes a pass out of a plan. -/
  | take (plan pass : Nat)
  | build (plan : Nat) (env : Environment)
  | drop (holding : Nat)

/-- The modules that are handed over. -/
def Operation.adopted : Operation → List Object
  | .adopt vertexModule fragmentModule _ _ =>
    (vertexModule.toList ++ fragmentModule.toList).map Handle.object
  | _ => []

def held (w : Workshop) : List Shader := w.holdings.flatMap Holding.shaders

def put (w : Workshop) (x : Holding) : Workshop := { w with holdings := x :: w.holdings }

def without (w : Workshop) (k : Nat) : Workshop := { w with holdings := w.holdings.eraseIdx k }

def enter (w : Workshop) (s : Shader) : Workshop :=
  { w with holdings := .handle s :: w.holdings, shaders := s :: w.shaders }

def declaration? (w : Workshop) : Declaration Nat → Option (Declaration Shader)
  | .read name => some (.read name)
  | .color name policy => some (.color name policy)
  | .depth name policy => some (.depth name policy)
  | .pipeline k bindings => w.held[k]?.map fun s => .pipeline s bindings
  | .hook tag => some (.hook tag)

/-- An operation on what is not there is passed over. A build uses up its plan. -/
def step (w : Workshop) : Operation → HostM Workshop
  | .create vertex fragment => do
    let (result, cache) ← Shader.create w.cache vertex fragment
    match result with
    | .ok s => return { w.enter s with cache := cache }
    | .error _ => return { w with cache := cache }
  | .adopt vertexModule fragmentModule attributes setLayout => do
    return w.enter (← Shader.adopt vertexModule fragmentModule attributes setLayout)
  | .share k =>
    match w.held[k]? with
    | some s => do
      s.retain
      return w.put (.handle s)
    | none => return w
  | .begin name => return w.put (.pass { name := name })
  | .declare k d =>
    match w.holdings[k]?, w.declaration? d with
    | some (.pass p), some d => do
      return (w.without k).put (.pass (← p.declareOwned d))
    | _, _ => return w
  | .compile k images =>
    match w.holdings[k]? with
    | some (.pass p) => do
      let _ ← (p.compile images).run
      return w
    | _ => return w
  | .draft output => return w.put (.draft ⟨[], output⟩)
  | .add k j =>
    match w.holdings[k]?, (w.without k).holdings[j]? with
    | some (.pass p), some (.draft d) =>
      return ((w.without k).without j).put (.draft { d with passes := d.passes ++ [p] })
    | _, _ => return w
  | .plan k =>
    match w.holdings[k]? with
    | some (.draft d) => do
      return (w.without k).put (.plan (← d.planWithReport))
    | _ => return w
  | .amend k edit =>
    match w.holdings[k]? with
    | some (.plan p) => return (w.without k).put (.plan (edit.apply p))
    | _ => return w
  | .take k i =>
    match w.holdings[k]? with
    | some (.plan p) =>
      match p.passes[i]? with
      | some q =>
        return ((w.without k).put (.plan { p with passes := p.passes.eraseIdx i })).put (.pass q)
      | none => return w
    | _ => return w
  | .build k env =>
    match w.holdings[k]? with
    | some (.plan p) => do
      let _ ← p.build env
      return w.without k
    | _ => return w
  | .drop k =>
    match w.holdings[k]? with
    | some x => do
      x.drop
      return w.without k
    | none => return w

def run (w : Workshop) (operations : List Operation) : HostM Workshop := operations.foldlM step w

/-! ## What is held -/

variable {w : Workshop} {k : Nat}

theorem held_perm {x : Holding} (hPlace : w.holdings[k]? = some x) :
    w.held.Perm (x.shaders ++ (w.without k).held) := by
  obtain ⟨hk, rfl⟩ := List.getElem?_eq_some_iff.mp hPlace
  have hPerm := (List.getElem_cons_eraseIdx_perm hk).symm.flatMap_right Holding.shaders
  rwa [List.flatMap_cons] at hPerm

theorem shaders_subset_held {x : Holding} (hPlace : w.holdings[k]? = some x) :
    x.shaders ⊆ w.held := fun _ hs => (held_perm hPlace).mem_iff.mpr (List.mem_append_left _ hs)

theorem held_put (x : Holding) : (w.put x).held = x.shaders ++ w.held := List.flatMap_cons ..

theorem shaders_resolveAll (s : StateMap) (passes : List Pass) :
    (Pass.resolveAll s passes).flatMap Pass.shaders = passes.flatMap Pass.shaders := by
  induction passes generalizing s with
  | nil => rfl
  | cons p passes ih =>
    rw [Pass.resolveAll, List.flatMap_cons, ih, List.flatMap_cons]
    rfl

theorem shaders_declare {p : Pass} {d : Declaration Shader}
    (h : ∀ s bindings, d ≠ .pipeline s bindings) : (p.declare d).shaders = p.shaders := by
  cases d with
  | pipeline s bindings => exact absurd rfl (h s bindings)
  | _ => rfl

end Workshop

end FrameGraph
