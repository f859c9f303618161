import FrameGraph.Image.Creation
import FrameGraph.Proofs.Host.Requests

/-! # What work on an image keeps to

Creating an image concerns images, their memory and their views only, and so does destroying one.
Whatever the order of releases, an image is created in the same way.
-/

namespace FrameGraph

set_option autoImplicit false

open Host

namespace Image

def kinds : List ObjectKind := [.image, .memory, .imageView]

theorem image_mem_kinds : .image ∈ kinds := by decide

theorem memory_mem_kinds : .memory ∈ kinds := by decide

theorem imageView_mem_kinds : .imageView ∈ kinds := by decide

theorem kind_of_mem_objects {i : Image} {o : Object} (ho : o ∈ i.objects) : o.kind ∈ kinds := by
  unfold objects at ho
  cases hMemory : i.memory with
  | none => simp [hMemory] at ho
  | some memory =>
    simp only [hMemory, List.mem_cons, List.not_mem_nil, or_false] at ho
    rcases ho with rfl | rfl | rfl
    · exact imageView_mem_kinds
    · exact image_mem_kinds
    · exact memory_mem_kinds

theorem keepsTo_drop (i : Image) : KeepsTo (.about kinds) (fun _ => True) i.drop :=
  .destroyAll fun _ ho => Call.concerns_destroy (kind_of_mem_objects ho)

end Image

namespace ImageRequest

theorem confined_allocate (env : Environment) (r : ImageRequest) (image : Handle .image) :
    Confined (.about Image.kinds) (fun _ => True) (r.allocate env image) := by
  have hNeeds : Call.Concerns Image.kinds (.queryMemoryNeeds image) := Call.concerns_idle rfl
  refine .always_bind (.step (.memoryNeeds image hNeeds) fun _ h => h) fun needs _ => ?_
  split
  · exact .throw trivial
  · exact .throw trivial
  · exact .acquire_about Image.memory_mem_kinds _

theorem confined_bindAndView (r : ImageRequest) (image : Handle .image)
    (memory : Handle .memory) :
    Confined (.about Image.kinds) (fun _ => True) (r.bindAndView image memory) := by
  have hBind : ∀ refusal, Call.Concerns Image.kinds (.bindMemory image memory 0 refusal) :=
    fun _ => Call.concerns_idle rfl
  refine .always_bind (.step (.bindMemory image memory hBind) fun _ h => h) fun refusal _ => ?_
  cases refusal with
  | none => exact .acquire_about Image.imageView_mem_kinds _
  | some code => exact .throw trivial

end ImageRequest

namespace Image

theorem keepsTo_attachName (env : Environment) (name : Name) (image : Handle .image) :
    KeepsTo (.about kinds) (fun _ => True) (attachName env name image) := by
  have hName : ∀ refusal,
      Call.Concerns kinds (.nameObject imageObjectType image.object name.text refusal) := fun _ =>
    Call.concerns_idle rfl
  unfold attachName
  split
  · split
    · exact .report trivial
    · refine .bind (.step (.nameImage image name.text hName) fun _ h => h) fun refusal _ => ?_
      cases refusal with
      | none => exact .pure trivial
      | some code => exact .report trivial
  · exact .pure trivial

theorem confined_create (env : Environment) (r : ImageRequest) :
    Confined (.about kinds) (fun _ => True) (create env r) := by
  have hImage : ∀ image : Handle .image, Call.Concerns kinds (.destroy image.object) := fun _ =>
    Call.concerns_destroy image_mem_kinds
  have hMemory : ∀ memory : Handle .memory, Call.Concerns kinds (.destroy memory.object) := fun _ =>
    Call.concerns_destroy memory_mem_kinds
  refine .bind (.acquire_about image_mem_kinds _) fun image => ?_
  refine .bind (.cleaningUp (.destroy (hImage image)) (r.confined_allocate env image))
    fun memory => ?_
  refine .bind (.cleaningUp (.destroyAll ?_) (r.confined_bindAndView image memory)) fun view => ?_
  · exact List.forall_mem_cons.mpr ⟨hImage image, List.forall_mem_singleton.mpr (hMemory memory)⟩
  · exact .always_bind (keepsTo_attachName env r.name image) fun _ _ => .pure _

end Image

end FrameGraph
