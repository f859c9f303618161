import FrameGraph.Proofs.Pass.Check

/-! # Targets, one by one

A pass is bound to its images exactly if every name that it refers to has an image, and otherwise
the first one without is reported. The targets then stand in the order in which the pass lists
them, and what the device is told about each of them comes from that target and its image.
-/

namespace FrameGraph

set_option autoImplicit false

open Traversal

/-- A target with an image behind it. -/
inductive Drawn where
  | color (t : Target Color)
  | depth (t : Target DepthStencil)

namespace Drawn

def use : Drawn → Use
  | .color t => t.toUse
  | .depth t => t.toUse

def name (r : Drawn) : Name := r.use.name

/-- What the target is drawn as, which is also the state in which it is left. -/
def role : Drawn → ImageState
  | .color _ => .colorTarget
  | .depth _ => .depthTarget

def load : Drawn → LoadOp
  | .color t => t.policy.loadOp
  | .depth t => t.policy.loadOp

/-- A target that is cleared has a value of its own. All others have the same one. -/
inductive ClearsTo : Drawn → ClearValue → Prop
  | color {t : Target Color} {value : Color} (hClear : t.policy = .clear value) :
      ClearsTo (.color t) (.color value)
  | colorKept {t : Target Color} (hKept : ∀ value, t.policy ≠ .clear value) :
      ClearsTo (.color t) (.color .default)
  | depth {t : Target DepthStencil} {value : DepthStencil} (hClear : t.policy = .clear value) :
      ClearsTo (.depth t) (.depthStencil value)
  | depthKept {t : Target DepthStencil} (hKept : ∀ value, t.policy ≠ .clear value) :
      ClearsTo (.depth t) (.depthStencil .default)

/-- The device is told about the target what the target and its image say. -/
structure Told (r : Drawn) (i : Image) (description : TargetDescription)
    (view : Handle .imageView) (clear : ClearValue) : Prop where
  description : description =
    { format := i.format, load := r.load, initial := r.use.initial.layout, final := r.role.layout }
  view : view = i.view
  clear : r.ClearsTo clear

theorem clearsTo_color (t : Target Color) :
    (color t).ClearsTo (.color (t.policy.clearValue .default)) := by
  cases hPolicy : t.policy with
  | clear value => exact .color hPolicy
  | load => exact .colorKept fun _ h => nomatch hPolicy.symm.trans h
  | discard => exact .colorKept fun _ h => nomatch hPolicy.symm.trans h

theorem clearsTo_depth (t : Target DepthStencil) :
    (depth t).ClearsTo (.depthStencil (t.policy.clearValue .default)) := by
  cases hPolicy : t.policy with
  | clear value => exact .depth hPolicy
  | load => exact .depthKept fun _ h => nomatch hPolicy.symm.trans h
  | discard => exact .depthKept fun _ h => nomatch hPolicy.symm.trans h

/-- The target is bound to the image of its name. -/
def BoundTo (images : ImageMap) (r : Drawn) (b : BoundTarget) : Prop :=
  images.get? r.name = some b.image ∧ r.Told b.image b.description b.image.view b.clear

end Drawn

/-- The first of the names that has no image. -/
def ImageMap.firstMissing? (images : ImageMap) (names : List Name) : Option Name :=
  names.find? fun n => !images.contains n

namespace Pass

/-- The color targets as they are declared, and the depth target after them. -/
def drawn (p : Pass) : List Drawn := p.liveColors.map .color ++ p.liveDepth.toList.map .depth

/-- The names that need images, in the order in which the images are looked up. -/
def neededNames (p : Pass) : List Name := p.drawn.map Drawn.name ++ p.liveInputs.map Use.name

/-- What is bound to the pass is told target by target. -/
structure BindsEach (p : Pass) (images : ImageMap) (t : TargetSet) : Prop where
  told : ∀ (k : Nat) (r : Drawn), p.drawn[k]? = some r → ∃ i description view clear,
    images.get? r.name = some i ∧ r.Told i description view clear ∧
      t.descriptions[k]? = some description ∧ t.views[k]? = some view ∧
      t.clearValues[k]? = some clear
  descriptions : t.descriptions.length = p.drawn.length
  views : t.views.length = p.drawn.length
  clearValues : t.clearValues.length = p.drawn.length
  colorReferences : t.colorReferences =
    (List.range p.liveColors.length).map fun k => ⟨k, .colorTarget⟩
  depthReference : t.depthReference =
    p.liveDepth.map fun _ => ⟨p.liveColors.length, .depthTarget⟩
  noExtent : p.drawn = [] → t.extent = .zero
  extent : ∀ (r : Drawn) (rest : List Drawn), p.drawn = r :: rest →
    ∃ i, images.get? r.name = some i ∧ t.extent = i.extent

section Binding

variable {p : Pass} {images : ImageMap} {t : TargetSet}

theorem Binds.drawn (h : p.Binds images t) :
    List.Forall₂ (Drawn.BoundTo images) p.drawn t.all := by
  refine List.rel_append (List.forall₂_map_left_iff.mpr (h.colors.imp ?_))
    (List.forall₂_map_left_iff.mpr (h.depth.imp ?_))
  · rintro c _ ⟨i, hImage, rfl⟩
    exact ⟨hImage, rfl, rfl, Drawn.clearsTo_color c⟩
  · rintro d _ ⟨i, hImage, rfl⟩
    exact ⟨hImage, rfl, rfl, Drawn.clearsTo_depth d⟩

theorem Binds.each (h : p.Binds images t) : p.BindsEach images t := by
  have hDrawn := h.drawn
  have hCount : t.all.length = p.drawn.length := hDrawn.length_eq.symm
  refine ⟨fun k r hr => ?_, ?_, ?_, ?_, ?_, ?_, fun hNone => ?_, fun r rest hSplit => ?_⟩
  · obtain ⟨b, hb, hImage, hTold⟩ := exists_getElem?_of_forall₂ hDrawn hr
    refine ⟨b.image, b.description, b.image.view, b.clear, hImage, hTold, ?_, ?_, ?_⟩
    · rw [TargetSet.descriptions, List.getElem?_map, hb, Option.map_some]
    · rw [TargetSet.views, List.getElem?_map, hb, Option.map_some]
    · rw [TargetSet.clearValues, List.getElem?_map, hb, Option.map_some]
  · rw [TargetSet.descriptions, List.length_map, hCount]
  · rw [TargetSet.views, List.length_map, hCount]
  · rw [TargetSet.clearValues, List.length_map, hCount]
  · rw [TargetSet.colorReferences, h.colors.length_eq]
  · have hDepth := h.depth
    rw [TargetSet.depthReference, h.colors.length_eq]
    cases hTarget : p.liveDepth with
    | none =>
      rw [hTarget] at hDepth
      cases hBound : t.depth with
      | none => rfl
      | some b =>
        rw [hBound] at hDepth
        cases hDepth
    | some d =>
      rw [hTarget] at hDepth
      cases hBound : t.depth with
      | none =>
        rw [hBound] at hDepth
        cases hDepth
      | some b => rfl
  · rw [hNone] at hDrawn
    rw [TargetSet.extent, List.forall₂_nil_left_iff.mp hDrawn]
  · rw [hSplit] at hDrawn
    obtain ⟨b, bs, ⟨hImage, -⟩, -, hAll⟩ := List.forall₂_cons_left_iff.mp hDrawn
    refine ⟨b.image, hImage, ?_⟩
    rw [TargetSet.extent, hAll]

theorem neededNames_eq (p : Pass) : p.neededNames = p.liveColors.map (fun c => c.name) ++
    p.liveDepth.toList.map (fun d => d.name) ++ p.liveInputs.map Use.name := by
  simp only [neededNames, drawn, List.map_append, List.map_map]
  rfl

theorem mem_names_filter_isLive {α : Type} (useOf : α → Use) (as : List α) (n : Name) :
    n ∈ (as.filter fun a => (useOf a).isLive).map (fun a => (useOf a).name) ↔
      n ≠ .placeholder ∧ ∃ a ∈ as, (useOf a).name = n := by
  simp only [List.mem_map, List.mem_filter, Use.isLive_iff]
  constructor
  · rintro ⟨a, ⟨ha, hLive⟩, rfl⟩
    exact ⟨hLive, a, ha, rfl⟩
  · rintro ⟨hLive, a, ha, rfl⟩
    exact ⟨a, ⟨ha, hLive⟩, rfl⟩

/-- Every name that stands for an image is looked up. -/
theorem mem_neededNames {n : Name} :
    n ∈ p.neededNames ↔ n ≠ .placeholder ∧ ∃ role, (n, role) ∈ p.uses := by
  have hColors := mem_names_filter_isLive Target.toUse p.colors n
  have hDepth := mem_names_filter_isLive Target.toUse p.depth.toList n
  have hInputs := mem_names_filter_isLive id p.inputs n
  have hRoles : (∃ role, (n, role) ∈ p.uses) ↔ (∃ c ∈ p.colors, c.name = n) ∨
      (∃ d ∈ p.depth.toList, d.name = n) ∨ ∃ u ∈ p.inputs, u.name = n := by
    simp only [uses, List.mem_append, List.mem_map, Prod.mk.injEq, exists_or]
    grind
  rw [neededNames_eq, List.mem_append, List.mem_append, liveDepth, Option.toList_filter, hRoles,
    and_or_left, and_or_left, or_assoc]
  exact or_congr hColors (or_congr hDepth hInputs)

theorem ImageMap.firstMissing?_eq_none {names : List Name} :
    images.firstMissing? names = none ↔ ∀ n ∈ names, ∃ i, images.get? n = some i := by
  simp [ImageMap.firstMissing?, NameMap.contains, Option.ne_none_iff_exists']

theorem covered_iff : p.Covered images ↔ images.firstMissing? p.neededNames = none := by
  simp only [ImageMap.firstMissing?_eq_none, mem_neededNames]
  constructor
  · rintro h n ⟨hName, role, hUse⟩
    exact h (n, role) hUse hName
  · rintro h ⟨n, role⟩ hUse hName
    exact h n ⟨hName, role, hUse⟩

theorem imageOf_eq_error {n : Name} (hMissing : images.get? n = none) :
    p.imageOf images n = .error (.missingImage p.name n) := by
  rw [imageOf, hMissing]

theorem get?_of_firstMissing? {names : List Name} {n : Name}
    (hFirst : images.firstMissing? names = some n) : images.get? n = none := by
  simpa [NameMap.contains] using List.find?_some hFirst

/-- A traversal that looks up one name for each member fails with the first name that is
missing. -/
theorem mapM_eq_missing {α β : Type} {nameOf : α → Name} {f : α → Except BuildError β}
    (hMissing : ∀ a, images.get? (nameOf a) = none →
      f a = .error (.missingImage p.name (nameOf a)))
    (hThere : ∀ a i, images.get? (nameOf a) = some i → ∃ b, f a = .ok b) {as : List α} {n : Name}
    (hFirst : images.firstMissing? (as.map nameOf) = some n) :
    as.mapM f = .error (.missingImage p.name n) := by
  have hNone := get?_of_firstMissing? hFirst
  rw [ImageMap.firstMissing?, List.find?_map] at hFirst
  obtain ⟨a, hFind, rfl⟩ := Option.map_eq_some_iff.mp hFirst
  apply mapM_eq_error_of_find? (fun b hb => ?_) hFind (hMissing a hNone)
  have hSome : (images.get? (nameOf b)).isSome = true := by simpa [NameMap.contains] using hb
  obtain ⟨i, hi⟩ := Option.isSome_iff_exists.mp hSome
  exact hThere b i hi

theorem bindColors_eq_error {n : Name}
    (hFirst : images.firstMissing? (p.liveColors.map fun c => c.name) = some n) :
    p.liveColors.mapM (p.bindColor images) = .error (.missingImage p.name n) := by
  apply mapM_eq_missing (fun c hNone => ?_) (fun c i hi => ?_) hFirst
  · exact bind_eq_error.mpr (.inl (imageOf_eq_error hNone))
  · exact ⟨_, bindColor_eq_ok.mpr ⟨i, hi, rfl⟩⟩

theorem bindDepth_eq_error {n : Name}
    (hFirst : images.firstMissing? (p.liveDepth.toList.map fun d => d.name) = some n) :
    p.bindDepth images p.liveDepth = .error (.missingImage p.name n) := by
  have hNone := get?_of_firstMissing? hFirst
  cases hDepth : p.liveDepth with
  | none =>
    rw [hDepth] at hFirst
    cases hFirst
  | some d =>
    obtain rfl : d.name = n := by
      rw [hDepth] at hFirst
      exact List.mem_singleton.mp (List.mem_of_find?_eq_some hFirst) |>.symm
    exact bind_eq_error.mpr (.inl (imageOf_eq_error hNone))

theorem findInputs_eq_error {n : Name}
    (hFirst : images.firstMissing? (p.liveInputs.map Use.name) = some n) :
    (p.liveInputs.forM fun u => do
      let _ ← p.imageOf images u.name
      return) = .error (.missingImage p.name n) := by
  rw [forM_eq_mapM, map_eq_error]
  apply mapM_eq_missing (fun u hNone => ?_) (fun u i hi => ?_) hFirst
  · exact bind_eq_error.mpr (.inl (imageOf_eq_error hNone))
  · exact ⟨(), bind_eq_ok.mpr ⟨i, imageOf_eq_ok.mpr hi, rfl⟩⟩

theorem bindTargets_eq_error {n : Name}
    (hFirst : images.firstMissing? p.neededNames = some n) :
    p.bindTargets images = .error (.missingImage p.name n) := by
  rw [neededNames_eq, ImageMap.firstMissing?, List.find?_append, List.find?_append,
    Option.or_eq_some_iff, Option.or_eq_some_iff] at hFirst
  -- The first name without an image is that of a color, of the depth target or of an input.
  obtain (hColor | ⟨hColors, hDepth⟩) | ⟨hTargets, hInput⟩ := hFirst
  · exact bind_eq_error.mpr (.inl (bindColors_eq_error hColor))
  · obtain ⟨bs, hBound⟩ := exists_bindColors (ImageMap.firstMissing?_eq_none.mp hColors)
    refine bind_eq_error.mpr (.inr ⟨bs, hBound, ?_⟩)
    exact bind_eq_error.mpr (.inl (bindDepth_eq_error hDepth))
  · obtain ⟨hColors, hDepth⟩ := Option.or_eq_none_iff.mp hTargets
    obtain ⟨bs, hBound⟩ := exists_bindColors (ImageMap.firstMissing?_eq_none.mp hColors)
    obtain ⟨b, hDrawn⟩ := exists_bindDepth (ImageMap.firstMissing?_eq_none.mp hDepth)
    refine bind_eq_error.mpr (.inr ⟨bs, hBound, bind_eq_error.mpr (.inr ⟨b, hDrawn, ?_⟩)⟩)
    exact bind_eq_error.mpr (.inl (findInputs_eq_error hInput))

end Binding

/-- A pass is bound if all names that it refers to have images, and otherwise the first one without
is reported: color targets come first, then the depth target, then the inputs. -/
theorem bindTargets_exact (p : Pass) (images : ImageMap) :
    match images.firstMissing? p.neededNames with
    | some n => p.bindTargets images = .error (.missingImage p.name n)
    | none => ∃ t, p.bindTargets images = .ok t ∧ p.BindsEach images t := by
  cases hFirst : images.firstMissing? p.neededNames with
  | some n => exact bindTargets_eq_error hFirst
  | none =>
    obtain ⟨t, hTargets⟩ := (covered_iff.mpr hFirst).exists_binds
    exact ⟨t, hTargets, (bindTargets_eq_ok.mp hTargets).each⟩

end Pass

end FrameGraph
