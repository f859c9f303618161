import FrameGraph.Device.Call
import FrameGraph.Device.Device
import FrameGraph.Device.Info
import FrameGraph.Device.Object
import FrameGraph.Device.Release
import FrameGraph.Device.Script
import FrameGraph.Environment
import FrameGraph.Graph.Basic
import FrameGraph.Graph.Recording
import FrameGraph.Host
import FrameGraph.Image.Basic
import FrameGraph.Image.Creation
import FrameGraph.Image.Format
import FrameGraph.Image.Geometry
import FrameGraph.Image.State
import FrameGraph.Interface.Cache
import FrameGraph.Name
import FrameGraph.Name.Map
import FrameGraph.Notice
import FrameGraph.Number.Binary32
import FrameGraph.Number.Shortest
import FrameGraph.Pass.Basic
import FrameGraph.Pass.LoadPolicy
import FrameGraph.Pass.Objects
import FrameGraph.Pass.Targets
import FrameGraph.Plan.Basic
import FrameGraph.Plan.Build
import FrameGraph.Plan.Failure
import FrameGraph.Plan.Images
import FrameGraph.Plan.Roles
import FrameGraph.Plan.States
import FrameGraph.Proofs.Device.Log
import FrameGraph.Proofs.Graph.Blocks
import FrameGraph.Proofs.Graph.Change
import FrameGraph.Proofs.Graph.Custody
import FrameGraph.Proofs.Graph.Fitness
import FrameGraph.Proofs.Graph.Lifetime
import FrameGraph.Proofs.Graph.Notices
import FrameGraph.Proofs.Graph.Pool
import FrameGraph.Proofs.Graph.Recording
import FrameGraph.Proofs.Graph.Release
import FrameGraph.Proofs.Host.Answers
import FrameGraph.Proofs.Host.Confinement
import FrameGraph.Proofs.Host.Effect
import FrameGraph.Proofs.Host.Notices
import FrameGraph.Proofs.Host.Requests
import FrameGraph.Proofs.Image.Acquisition
import FrameGraph.Proofs.Image.Attempts
import FrameGraph.Proofs.Image.Confinement
import FrameGraph.Proofs.Image.Creation
import FrameGraph.Proofs.Interface.Requests
import FrameGraph.Proofs.Interface.Retention
import FrameGraph.Proofs.Interface.Sharing
import FrameGraph.Proofs.Interface.Slots
import FrameGraph.Proofs.Interface.Union
import FrameGraph.Proofs.Layout.Frame
import FrameGraph.Proofs.Layout.Recording
import FrameGraph.Proofs.Layout.Replay
import FrameGraph.Proofs.Layout.Targets
import FrameGraph.Proofs.Layout.Tracking
import FrameGraph.Proofs.Layout.Transitions
import FrameGraph.Proofs.Name.Map
import FrameGraph.Proofs.Name.Utf8
import FrameGraph.Proofs.Pass.Agreement
import FrameGraph.Proofs.Pass.Binding
import FrameGraph.Proofs.Pass.Check
import FrameGraph.Proofs.Pass.Compilation
import FrameGraph.Proofs.Pass.Failure
import FrameGraph.Proofs.Pass.Targets
import FrameGraph.Proofs.Pass.VertexInput
import FrameGraph.Proofs.Plan.Acceptance
import FrameGraph.Proofs.Plan.Allocation
import FrameGraph.Proofs.Plan.AllocationOrder
import FrameGraph.Proofs.Plan.Assembly
import FrameGraph.Proofs.Plan.Blocks
import FrameGraph.Proofs.Plan.Build
import FrameGraph.Proofs.Plan.Confinement
import FrameGraph.Proofs.Plan.Coverage
import FrameGraph.Proofs.Plan.Fitness
import FrameGraph.Proofs.Plan.Flags
import FrameGraph.Proofs.Plan.Independence
import FrameGraph.Proofs.Plan.Placeholders
import FrameGraph.Proofs.Plan.Resolution
import FrameGraph.Proofs.Plan.Roles
import FrameGraph.Proofs.Plan.Usage
import FrameGraph.Proofs.Plan.Warnings
import FrameGraph.Proofs.Shader.Creation
import FrameGraph.Proofs.Shader.Footprint
import FrameGraph.Proofs.Shader.Ledger
import FrameGraph.Proofs.Shader.Lifetime
import FrameGraph.Proofs.Shader.Refusals
import FrameGraph.Proofs.Shader.Release
import FrameGraph.Proofs.Shader.Upkeep
import FrameGraph.Proofs.Shader.Workshop
import FrameGraph.Proofs.Traversal
import FrameGraph.Proofs.Vertex.Division
import FrameGraph.Proofs.Vertex.Packing
import FrameGraph.Proofs.Vertex.Rejection
import FrameGraph.Proofs.Vertex.Words
import FrameGraph.Session.Run
import FrameGraph.Session.Step
import FrameGraph.Shader.Basic
import FrameGraph.Shader.Creation
import FrameGraph.Text
import FrameGraph.Vertex.Attribute
import FrameGraph.Vertex.Layout
