import FrameGraph.Device.Device
import FrameGraph.Notice
import FrameGraph.Shader.Basic

/-! # The host

What the work on the device runs in: the device itself, the notices written so far, and for
every shader one entry for each of its owners.
-/

namespace FrameGraph

set_option autoImplicit false

structure Host where
  device : Device
  notices : List Notice := []
  /-- The keys of shaders, each as often as it has owners. -/
  owners : List Nat := []
  lastKey : Nat := Shader.looseKey

abbrev HostM := StateM Host

abbrev HostE (ε : Type) := ExceptT ε HostM

namespace Host

variable {α ε : Type}

def ask (f : Device → α × Device) : HostM α := fun h =>
  ((f h.device).1, { h with device := (f h.device).2 })

def tell (f : Device → Device) : HostM Unit := fun h => ((), { h with device := f h.device })

def report (n : Notice) : HostM Unit := fun h => ((), { h with notices := h.notices ++ [n] })

def reportAll (ns : List Notice) : HostM Unit := ns.forM report

def destroy (o : Object) : HostM Unit := tell (Device.destroy o)

def destroyAll (os : List Object) : HostM Unit := os.forM destroy

def record (buffer : CommandBuffer) (command : Command) : HostM Unit :=
  tell (Device.record buffer command)

def recordAll (buffer : CommandBuffer) (commands : List Command) : HostM Unit :=
  commands.forM (record buffer)

def always (work : HostM α) : HostE ε α := ExceptT.lift work

def ofExcept : Except ε α → HostE ε α
  | .ok a => return a
  | .error e => throw e

/-- Runs `handler` when the work fails, and fails as the work did. -/
def onFailure (handler : ε → HostM Unit) (work : HostE ε α) : HostE ε α := do
  match ← always work.run with
  | .ok a => return a
  | .error e =>
    always (handler e)
    throw e

/-- Runs `cleanup` when the work fails, and fails as the work did. -/
def cleaningUp (cleanup : HostM Unit) (work : HostE ε α) : HostE ε α :=
  onFailure (fun _ => cleanup) work

/-- Creates an object. What a refused request leaves behind is destroyed at once. -/
def acquire (info : CreateInfo) (failure : ResultCode → ε) : HostE ε (Handle info.kind) := do
  match ← always (ask (Device.create info)) with
  | .made id => return ⟨id⟩
  | .refused code leftover =>
    always (destroyAll (leftover.toList.map fun id => ⟨info.kind, id⟩))
    throw (failure code)

/-! ## Runs -/

theorem run_bind {β : Type} (work : HostE ε α) (next : α → HostE ε β) (h : Host) :
    (work >>= next).run.run h =
      match work.run.run h with
      | (.ok a, h₁) => (next a).run.run h₁
      | (.error e, h₁) => (.error e, h₁) := by
  simp only [ExceptT.run_bind, StateT.run_bind]
  generalize work.run.run h = r
  rcases r with ⟨a | a, h₁⟩ <;> rfl

theorem run_always (work : HostM α) (h : Host) :
    (always work : HostE ε α).run.run h = (.ok (work.run h).1, (work.run h).2) := rfl

theorem run_onFailure (handler : ε → HostM Unit) (work : HostE ε α) (h : Host) :
    (onFailure handler work).run.run h =
      match work.run.run h with
      | (.ok a, h₁) => (.ok a, h₁)
      | (.error e, h₁) => (.error e, ((handler e).run h₁).2) := by
  rw [onFailure, run_bind, run_always]
  generalize work.run = w
  rcases hr : StateT.run w h with ⟨a | a, h₁⟩ <;> rfl

/-- A refused request leaves nothing behind. -/
theorem run_acquire (info : CreateInfo) (failure : ResultCode → ε) (h : Host) :
    (acquire info failure).run.run h =
      match h.device.create info with
      | (.made id, d) => (.ok ⟨id⟩, { h with device := d })
      | (.refused code none, d) => (.error (failure code), { h with device := d })
      | (.refused code (some id), d) =>
        (.error (failure code), { h with device := d.destroy ⟨info.kind, id⟩ }) := by
  have hask : (always (ask (Device.create info)) : HostE ε Creation).run.run h =
      (.ok (h.device.create info).1, { h with device := (h.device.create info).2 }) := rfl
  rw [acquire, run_bind, hask]
  generalize h.device.create info = r
  rcases r with ⟨id | ⟨code, _ | id⟩, d⟩ <;> rfl

end Host

/-! ## Owners of a shader

A shader is destroyed when its last owner lets it go: the vertex program first, then the
fragment program. An owner is whoever holds it by name, and every pass with it in its pipeline.
-/

namespace Shader

def register : HostM Nat := fun h =>
  (h.lastKey + 1,
    { h with lastKey := h.lastKey + 1, owners := (h.lastKey + 1) :: h.owners })

def retain (s : Shader) : HostM Unit := fun h => ((), { h with owners := s.key :: h.owners })

def forget (s : Shader) : HostM Unit := fun h => ((), { h with owners := h.owners.erase s.key })

/-- Takes an owner away, and destroys the modules if it was the last. -/
def release (s : Shader) : HostM Unit := do
  forget s
  let h ← get
  if h.owners.contains s.key then return
  else Host.destroyAll (s.modules.map Handle.object)

end Shader

end FrameGraph
