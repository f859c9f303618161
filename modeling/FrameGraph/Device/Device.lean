import FrameGraph.Device.Script

/-! # The device

A device keeps the list of its calls. It gives every object it makes the next identifier, counted
from one over all kinds of objects, so identifiers are never used twice.
-/

namespace FrameGraph

set_option autoImplicit false

structure Device where
  script : Script
  issued : Nat := 0
  /-- The requests so far that the device could have refused, the latest first. -/
  requests : List Request := []
  queries : Nat := 0
  calls : List Call := []

namespace Device

def append (d : Device) (c : Call) : Device := { d with calls := d.calls ++ [c] }

def answer (d : Device) (r : Request) : Option ResultCode :=
  d.script.refusal r (d.requests.count r + 1)

def receive (d : Device) (r : Request) : Device := { d with requests := r :: d.requests }

def leavesObject (d : Device) (info : CreateInfo) : Bool :=
  info.kind = .pipeline && d.script.leavesPipelines

def create (info : CreateInfo) (d : Device) : Creation × Device :=
  let next := d.issued + 1
  let d₁ := d.receive (.create info.kind)
  match d.answer (.create info.kind) with
  | none =>
    (.made next, { d₁ with issued := next }.append (.create info (.made next)))
  | some code =>
    if d.leavesObject info then
      (.refused code (some next),
        { d₁ with issued := next }.append (.create info (.refused code (some next))))
    else (.refused code none, d₁.append (.create info (.refused code none)))

def destroy (o : Object) (d : Device) : Device := d.append (.destroy o)

def memoryNeeds (image : Handle .image) (d : Device) : MemoryNeeds × Device :=
  (d.script.needs d.queries,
    { d with queries := d.queries + 1 }.append (.queryMemoryNeeds image))

def bindMemory (image : Handle .image) (memory : Handle .memory) (d : Device) :
    Option ResultCode × Device :=
  let refusal := d.answer .bindMemory
  (refusal, (d.receive .bindMemory).append (.bindMemory image memory 0 refusal))

def nameImage (image : Handle .image) (name : String) (d : Device) : Option ResultCode × Device :=
  let refusal := d.answer .nameObject
  (refusal,
    (d.receive .nameObject).append (.nameObject imageObjectType image.object name refusal))

/-- The members of a collection that is about to be released. No call is made for their order. -/
def shuffled {α : Type} (objects : α → List Object) (as : List α) (d : Device) : List α × Device :=
  (d.script.shuffled objects as, d)

def record (buffer : CommandBuffer) (command : Command) (d : Device) : Device :=
  d.append (.record buffer command)

end Device

end FrameGraph
