import FrameGraph.Notice
import FrameGraph.Pass.Basic

/-! # States of images over a sequence of passes

Going through the passes in order, every use of an image finds the image in the state in which
the use before it left it. Placeholders are passed over.
-/

namespace FrameGraph

set_option autoImplicit false

/-- The last role of every name seen so far, the latest first. -/
structure StateMap where
  roles : List (Name × ImageState) := []
  deriving DecidableEq, Inhabited

namespace StateMap

/-- A name that was never used is in the unknown state. -/
def stateOf (s : StateMap) (n : Name) : ImageState := (s.roles.lookup n).getD .unknown

def step (s : StateMap) (use : Name × ImageState) : StateMap :=
  if use.1.isPlaceholder then s else ⟨use :: s.roles⟩

def steps (s : StateMap) (uses : List (Name × ImageState)) : StateMap := uses.foldl step s

def stamp (s : StateMap) (u : Use) : Use :=
  if u.isLive then { u with initial := s.stateOf u.name } else u

/-- Fills in the uses of one role, each of which the next one follows. -/
def stampUses (role : ImageState) : StateMap → List Use → List Use
  | _, [] => []
  | s, u :: rest => s.stamp u :: stampUses role (s.step (u.name, role)) rest

def stampTargets {α : Type} (role : ImageState) : StateMap → List (Target α) → List (Target α)
  | _, [] => []
  | s, t :: rest =>
    { t with toUse := s.stamp t.toUse } :: stampTargets role (s.step (t.name, role)) rest

end StateMap

namespace Pass

/-- The pass with the states filled in, where the passes before it leave the given states. -/
def resolve (s : StateMap) (p : Pass) : Pass :=
  let afterInputs := s.steps (p.inputs.map fun u => (u.name, .shaderRead))
  let afterColors := afterInputs.steps (p.colors.map fun t => (t.name, .colorTarget))
  { p with
    inputs := StateMap.stampUses .shaderRead s p.inputs
    colors := StateMap.stampTargets .colorTarget afterInputs p.colors
    depth := p.depth.map fun t => { t with toUse := afterColors.stamp t.toUse } }

def leaves (s : StateMap) (p : Pass) : StateMap := s.steps p.uses

/-- The transition of a use, unless it is of a placeholder. -/
def useNotice (u : Use) (role : ImageState) : List Notice :=
  if u.isLive then [.transition u.name u.initial role] else []

def inputNotices (pass : String) (u : Use) : List Notice :=
  useNotice u .shaderRead ++
    (if u.initial = .unknown then [.readBeforeWrite pass u.name] else [])

def notices (p : Pass) : List Notice :=
  p.inputs.flatMap (inputNotices p.name) ++
    p.colors.flatMap (fun t => useNotice t.toUse .colorTarget) ++
    p.depth.toList.flatMap (fun t => useNotice t.toUse .depthTarget)

def resolveAll : StateMap → List Pass → List Pass
  | _, [] => []
  | s, p :: rest => p.resolve s :: resolveAll (p.leaves s) rest

def leavesAll (s : StateMap) (passes : List Pass) : StateMap := passes.foldl leaves s

end Pass

end FrameGraph
