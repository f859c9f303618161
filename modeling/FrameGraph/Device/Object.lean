/-! # Objects and result codes of a device -/

namespace FrameGraph

set_option autoImplicit false

inductive ObjectKind where
  | image
  | memory
  | imageView
  | shaderModule
  | setLayout
  | renderPass
  | framebuffer
  | pipelineLayout
  | pipeline
  deriving DecidableEq

structure Handle (kind : ObjectKind) where
  id : Nat
  deriving DecidableEq, Inhabited

/-- The number no object has. -/
def Handle.absentId : Nat := 0

/-- The handle of an identifier that may stand for no object. -/
def Handle.ofId? {kind : ObjectKind} (id : Nat) : Option (Handle kind) :=
  if id = absentId then none else some ⟨id⟩

structure Object where
  kind : ObjectKind
  id : Nat
  deriving DecidableEq

def Handle.object {kind : ObjectKind} (h : Handle kind) : Object := ⟨kind, h.id⟩

structure CommandBuffer where
  id : Nat
  deriving DecidableEq, Inhabited

/-! ## Result codes -/

/-- The answer of the device to a request; zero is success. -/
structure ResultCode where
  value : Int
  deriving DecidableEq, Inhabited

namespace ResultCode

def success : ResultCode := ⟨0⟩

def descriptions : List (Int × String) :=
  [(0, "Command completed successfully"),
    (1, "A fence or query has not yet completed"),
    (2, "A wait operation has not completed in the specified time"),
    (3, "An event is signaled"),
    (4, "An event is unsignaled"),
    (5, "A return array was too small for the result"),
    (-1, "A host memory allocation has failed"),
    (-2, "A device memory allocation has failed"),
    (-3, "Initialization of a object has failed"),
    (-4, "The logical device has been lost. See <<devsandqueues-lost-device>>"),
    (-5, "Mapping of a memory object has failed"),
    (-6, "Layer specified does not exist"),
    (-7, "Extension specified does not exist"),
    (-8, "Requested feature is not available on this device"),
    (-9, "Unable to find a Vulkan driver"),
    (-10, "Too many objects of the type have already been created"),
    (-11, "Requested format is not supported on this device"),
    (-12, "A requested pool allocation has failed due to fragmentation of the pool's memory")]

/-- What the code means, or its number where it has no description. -/
def text (c : ResultCode) : String := (descriptions.lookup c.value).getD (toString c.value)

end ResultCode

end FrameGraph
