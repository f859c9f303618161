import FrameGraph.Device.Release

/-! # What is not up to the program

A script fixes the answers of a device beforehand: which requests it refuses, and what memory
its images need. It also fixes in which order a collection is released whose members have none. It
covers every pattern of refusals and every order.
-/

namespace FrameGraph

set_option autoImplicit false

inductive Request where
  | create (kind : ObjectKind)
  | bindMemory
  | nameObject
  deriving DecidableEq

/-- A refusal of the `turn`-th request of its sort, counted from one. -/
structure Fault where
  request : Request
  turn : Nat
  code : ResultCode
  deriving DecidableEq

structure Script where
  refusal : Request → Nat → Option ResultCode
  /-- The answer to a query of memory needs, by the number of earlier queries. -/
  needs : Nat → MemoryNeeds
  /-- A refused pipeline is handed over all the same. -/
  leavesPipelines : Bool
  /-- The order in which a collection is released, by the objects that are in it. -/
  order : List Object → Shuffle := fun _ => .inOrder

namespace Script

/-- The refusals of a list. A fault with the code of success refuses nothing. -/
def refusalOf (faults : List Fault) (request : Request) (turn : Nat) : Option ResultCode :=
  (faults.find? fun f => f.request = request && f.turn = turn && f.code ≠ .success).map Fault.code

/-- What an image needs where no answer is listed: one page of the first type of memory. -/
def ordinaryNeeds : MemoryNeeds := ⟨4096, 1⟩

/-- The answers of a list, the last of them repeated. An empty list answers as usual. -/
def needsOf (answers : List MemoryNeeds) (earlier : Nat) : MemoryNeeds :=
  (answers[earlier]? <|> answers.getLast?).getD ordinaryNeeds

def ofLists (faults : List Fault) (answers : List MemoryNeeds) (leavesPipelines : Bool) :
    Script where
  refusal := refusalOf faults
  needs := needsOf answers
  leavesPipelines := leavesPipelines

variable {α : Type}

/-- The members of a collection in the order in which they are released. -/
def shuffled (s : Script) (objects : α → List Object) (as : List α) : List α :=
  (s.order (as.flatMap objects)).apply as

theorem shuffled_perm (s : Script) (objects : α → List Object) (as : List α) :
    (s.shuffled objects as).Perm as := (s.order (as.flatMap objects)).apply_perm as

end Script

end FrameGraph
