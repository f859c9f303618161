import FrameGraph.Image.Format

/-! # Vertex inputs of a shader -/

namespace FrameGraph

set_option autoImplicit false

/-- The type of a vertex input. An input that could not be classified has no format. -/
inductive AttributeType where
  | float
  | float2
  | float3
  | float4
  | int
  | int2
  | int3
  | int4
  | matrix2
  | matrix3
  | matrix4
  | unclassified
  deriving DecidableEq, Inhabited

/-- The format of each location an input takes, and how many it takes. A matrix takes one
location a column. -/
def AttributeType.columns? : AttributeType → Option (Format × Nat)
  | .float => some (.r32Sfloat, 1)
  | .float2 => some (.r32g32Sfloat, 1)
  | .float3 => some (.r32g32b32Sfloat, 1)
  | .float4 => some (.r32g32b32a32Sfloat, 1)
  | .int => some (.r32Sint, 1)
  | .int2 => some (.r32g32Sint, 1)
  | .int3 => some (.r32g32b32Sint, 1)
  | .int4 => some (.r32g32b32a32Sint, 1)
  | .matrix2 => some (.r32g32Sfloat, 2)
  | .matrix3 => some (.r32g32b32Sfloat, 3)
  | .matrix4 => some (.r32g32b32a32Sfloat, 4)
  | .unclassified => none

structure Attribute where
  type : AttributeType
  byteSize : Nat
  deriving DecidableEq, Inhabited

inductive InputRate where
  | perVertex
  | perInstance
  deriving DecidableEq, Inhabited

def InputRate.code : InputRate → Nat
  | .perVertex => 0
  | .perInstance => 1

/-- A vertex buffer that feeds the next `count` locations of the shader. -/
structure VertexBinding where
  rate : InputRate
  count : Nat
  deriving DecidableEq, Inhabited

end FrameGraph
