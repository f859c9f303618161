import FrameGraph.Proofs.Plan.Coverage

/-! # What the images of a graph are fit for

An image is created with the usages that the uses of its name ask for, and the roles of the name
decide between the two formats of the surface and between the aspects that go with them.
-/

namespace FrameGraph

set_option autoImplicit false

namespace Image

/-- What the image was asked for as. -/
def request (i : Image) : ImageRequest := ⟨i.name, i.extent, i.format, i.usage, i.aspect⟩

/-- The image has the format and the aspect of a color image of the surface. -/
def IsColor (s : Surface) (i : Image) : Prop := i.format = s.colorFormat ∧ i.aspect = .color

def IsDepth (s : Surface) (i : Image) : Prop := i.format = s.depthFormat ∧ i.aspect = .depth

end Image

theorem ImageRequest.Fulfilled.request_eq {r : ImageRequest} {i : Image} {log : List Call}
    (h : r.Fulfilled i log) : i.request = r := by
  cases h
  rfl

theorem ImageUsage.includes_none (u : ImageUsage) : u.includes .none = true := by
  simp [includes, none]

namespace UsageMap

theorem kindOf_eq_ok {n : Name} {usage : ImageUsage} {kind : TargetKind}
    (h : kindOf n usage = .ok kind) :
    kind = .depth ↔ usage.includes .depthTarget = true := by
  unfold kindOf at h
  cases hColor : usage.includes .colorTarget <;> cases hDepth : usage.includes .depthTarget <;>
    simp only [hColor, hDepth] at h <;> cases h <;> simp

end UsageMap

namespace Draft

/-- Some use of the name asks for the role, or the output is copied from. -/
def AsksFor (d : Draft) (n : Name) (role : ImageState) : Prop :=
  (n, role) ∈ d.passes.flatMap Pass.uses ∨ (d.output, .copySource) = (n, role)

/-- The image can have all roles of its name, and if one of them is a target, it is such an
image. -/
structure Fits (d : Draft) (s : Surface) (n : Name) (i : Image) : Prop where
  extent : i.extent = s.extent
  usage : ∀ role, d.AsksFor n role → i.usage.includes role.usage = true
  color : d.AsksFor n .colorTarget → i.IsColor s
  depth : d.AsksFor n .depthTarget → i.IsDepth s
  output : n = d.output → i.aspect = .color

end Draft

namespace Plan.Assembled

variable {d : Draft} {env : Environment} {g : Graph} {imageCalls nodeCalls : List Call}

theorem fits (h : d.plan.Assembled env g imageCalls nodeCalls) {n : Name} {i : Image}
    (hImage : g.images.get? n = some i) : d.Fits env.surface n i := by
  obtain ⟨usage, kind, calls, hUsage, hKind, hFulfilled, -⟩ :=
    h.images.image_mem (NameMap.get?_eq_some.mp hImage)
  have hUsed : d.plan.usages.get? n = some usage := NameMap.get?_eq_some.mpr hUsage
  have hName : n ≠ .placeholder :=
    (UsageMap.contains_ofPasses.mp (Option.isSome_iff_exists.mpr ⟨usage, hUsed⟩)).1
  have hRequest := hFulfilled.request_eq
  have hFormat := congrArg ImageRequest.format hRequest
  have hAspect := congrArg ImageRequest.aspect hRequest
  obtain rfl : i.usage = usage := congrArg ImageRequest.usage hRequest
  have hAsks : ∀ role : ImageState, d.AsksFor n role → i.usage.includes role.usage = true := by
    intro role hAsk
    by_cases hRole : role = .unknown
    · subst hRole
      exact i.usage.includes_none
    · exact (UsageMap.asks_iff hUsed role).mp ((UsageMap.asks_ofPasses hRole).mpr ⟨hName, hAsk⟩)
  have hColor : i.usage.includes .depthTarget = false → i.IsColor env.surface := by
    intro hNoDepth
    cases kind with
    | color => exact ⟨hFormat, hAspect⟩
    | depth => simp [(UsageMap.kindOf_eq_ok hKind).mp rfl] at hNoDepth
  refine ⟨congrArg ImageRequest.extent hRequest, hAsks, fun hAsk => ?_, fun hAsk => ?_,
    fun hOutput => ?_⟩
  · refine hColor (Bool.eq_false_iff.mpr fun hDepth => ?_)
    exact UsageMap.exists_kindOf_eq_ok.mp ⟨kind, hKind⟩ ⟨hAsks .colorTarget hAsk, hDepth⟩
  · obtain rfl := (UsageMap.kindOf_eq_ok hKind).mpr (hAsks .depthTarget hAsk)
    exact ⟨hFormat, hAspect⟩
  · obtain ⟨kinds, hChecked⟩ := h.usages
    obtain ⟨⟨⟩, hShown, -⟩ := Traversal.bind_eq_ok.mp hChecked
    refine (hColor (Bool.eq_false_iff.mpr fun hDepth => ?_)).2
    subst hOutput
    exact UsageMap.checkOutput_eq_ok.mp hShown
      ((UsageMap.asks_iff hUsed .depthTarget).mpr hDepth)

end Plan.Assembled

/-! ## Framebuffers -/

/-- The framebuffer has the extent of every image that it binds. -/
structure FramebufferInfo.Binds (images : ImageMap) (info : FramebufferInfo)
    (bound : List Image) : Prop where
  views : info.views = bound.map Image.view
  images : ∀ i ∈ bound, ∃ n, images.get? n = some i
  extents : ∀ i ∈ bound, info.extent = i.extent

namespace TargetSet

def images (t : TargetSet) : List Image := t.all.map BoundTarget.image

end TargetSet

namespace Pass.Binds

variable {p : Pass} {images : ImageMap} {t : TargetSet}

end Pass.Binds

end FrameGraph
