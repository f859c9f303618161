import FrameGraph.Proofs.Host.Confinement
import FrameGraph.Proofs.Host.Notices
import FrameGraph.Proofs.Pass.Failure
import FrameGraph.Proofs.Vertex.Rejection

/-! # Vertex inputs of a pass

A pass packs the inputs of its shader when it is compiled. It reports when they fill fewer
bindings than it declares, and when they cannot be packed it fails before it does anything.
-/

namespace FrameGraph

set_option autoImplicit false

open Host Traversal VertexBinding

def Notice.isUnfilled : Notice → Bool
  | .unfilledBindings .. => true
  | _ => false

namespace Pass

/-- The pass draws into some target, with a shader of these inputs and with these bindings. -/
structure DrawsWith (p : Pass) (images : ImageMap) (attributes : List Attribute)
    (declared : List VertexBinding) : Prop where
  choice : ∃ choice, p.pipeline = some choice ∧ choice.shader.attributes = attributes ∧
    choice.bindings = declared
  targets : ∃ t, p.bindTargets images = .ok t ∧ t.isEmpty = false

variable {p : Pass} {images : ImageMap} {attributes : List Attribute}
  {declared : List VertexBinding}

theorem run_compile_of_pack_error (h : Host) (hDraws : p.DrawsWith images attributes declared)
    {e : PackingError} (hPack : VertexLayout.pack attributes declared = .error e) :
    (p.compile images).run.run h = (.error (.packing p.name e), h) := by
  obtain ⟨choice, hPipeline, rfl, rfl⟩ := hDraws.choice
  obtain ⟨t, hTargets, hSome⟩ := hDraws.targets
  have hLayout : p.vertexLayout t = .error (.packing p.name e) := by
    simp [vertexLayout, hPipeline, hSome, hPack]
  exact run_compile_of_check_error (bind_eq_error.mpr (.inr ⟨t, hTargets, hLayout⟩)) h

theorem run_compile_of_pack_ok (h : Host) (hDraws : p.DrawsWith images attributes declared)
    {l : VertexLayout} (hPack : VertexLayout.pack attributes declared = .ok l) :
    ∃ t, (p.compile images).run.run h =
      match (p.createObjects t (some l)).run.run
          { h with notices := h.notices ++ l.notices p.name declared } with
      | (.ok objects, h₁) => (.ok objects, ((report (.passCompiled p.name t.all.length t.extent
          objects.pipeline.isSome)).run h₁).2)
      | (.error e, h₁) => (.error e, h₁) := by
  obtain ⟨choice, hPipeline, rfl, rfl⟩ := hDraws.choice
  obtain ⟨t, hTargets, hSome⟩ := hDraws.targets
  have hLayout : p.vertexLayout t = .ok (some l) := by
    simp [vertexLayout, hPipeline, hSome, hPack]
  have hPacking : p.packingNotices (some l) = l.notices p.name choice.bindings := by
    unfold packingNotices
    rw [hPipeline]
  refine ⟨t, ?_⟩
  rw [compile, run_bind, hTargets]
  change (ofExcept (p.vertexLayout t) >>= _).run.run h = _
  rw [run_bind, hLayout]
  change (always (reportAll (p.packingNotices (some l))) >>= _).run.run h = _
  rw [run_bind, run_always, hPacking, run_reportAll]
  simp only [hSome, Bool.false_eq_true, if_false]
  rw [run_bind]
  rcases (p.createObjects t (some l)).run.run
    { h with notices := h.notices ++ l.notices p.name choice.bindings } with ⟨e | objects, h₁⟩
  · rfl
  · rfl

/-- Of the notices about unfilled bindings, only that of the layout is added. -/
theorem notices_compile_of_pack_ok (h : Host) (hDraws : p.DrawsWith images attributes declared)
    {l : VertexLayout} (hPack : VertexLayout.pack attributes declared = .ok l) :
    ((p.compile images).run.run h).2.notices.filter Notice.isUnfilled =
      h.notices.filter Notice.isUnfilled ++ l.notices p.name declared := by
  obtain ⟨t, hRun⟩ := run_compile_of_pack_ok h hDraws hPack
  have hUnfilled : (l.notices p.name declared).filter Notice.isUnfilled =
      l.notices p.name declared := by
    unfold VertexLayout.notices
    split <;> rfl
  have hSilent : Preserves Host.notices (p.createObjects t (some l)).run :=
    (p.confined_createObjects t (some l)).preserves (fun _ _ => rfl) fun _ => False.elim
  have hCreate := hSilent { h with notices := h.notices ++ l.notices p.name declared }
  rw [hRun]
  rcases hObjects : (p.createObjects t (some l)).run.run
    { h with notices := h.notices ++ l.notices p.name declared } with ⟨e | objects, h₁⟩
  · rw [hObjects] at hCreate
    have hKept : h₁.notices = h.notices ++ l.notices p.name declared := hCreate
    rw [hKept, List.filter_append, hUnfilled]
  · rw [hObjects] at hCreate
    have hKept : h₁.notices = h.notices ++ l.notices p.name declared := hCreate
    change (h₁.notices ++ [_]).filter Notice.isUnfilled = _
    rw [hKept, List.filter_append, List.filter_append, hUnfilled]
    exact List.append_nil _

end Pass

namespace VertexLayout

/-- A layout that is packed is the one that the bindings ask for, and the pass that packs it says
once that bindings are not filled, if any are not. -/
theorem pack_exact {attributes : List Attribute} {declared : List VertexBinding}
    {l : VertexLayout} (hPack : pack attributes declared = .ok l) :
    l.Packs declared (attributes.flatMap Attribute.columns) ∧
      ∀ (p : Pass) (images : ImageMap) (h : Host), p.DrawsWith images attributes declared →
        ((p.compile images).run.run h).2.notices.filter Notice.isUnfilled =
          h.notices.filter Notice.isUnfilled ++
            if l.buffers.length < declared.length then
              [.unfilledBindings p.name declared.length l.buffers.length]
            else [] :=
  ⟨packs_of_pack hPack, fun _ _ h hDraws => Pass.notices_compile_of_pack_ok h hDraws hPack⟩

end VertexLayout

/-! A position, a transform and a texture coordinate, for bindings that they fill, fill partly and
leave out. -/

namespace Instanced

def attributes : List Attribute := [⟨.float3, 12⟩, ⟨.matrix3, 36⟩, ⟨.float2, 8⟩]

def bindings : List VertexBinding :=
  [⟨.perVertex, 1⟩, ⟨.perInstance, 3⟩, ⟨.perVertex, 2⟩, ⟨.perInstance, 1⟩]

def layout : VertexLayout where
  buffers := [⟨0, 12, .perVertex⟩, ⟨1, 36, .perInstance⟩, ⟨2, 8, .perVertex⟩]
  locations :=
    [⟨0, 0, .r32g32b32Sfloat, 0⟩, ⟨1, 1, .r32g32b32Sfloat, 0⟩, ⟨2, 1, .r32g32b32Sfloat, 12⟩,
      ⟨3, 1, .r32g32b32Sfloat, 24⟩, ⟨4, 2, .r32g32Sfloat, 0⟩]

def target : Image := .foreign ⟨"target"⟩ ⟨1⟩ ⟨2⟩ ⟨64, 64⟩ .r32g32b32a32Sfloat

def images : ImageMap := NameMap.empty.insert target.name target

def pass (declared : List VertexBinding) : Pass :=
  .ofDeclarations "particles" [.color target.name .discard, .pipeline (.loose attributes) declared]

def host : Host where
  device := { script := .ofLists [] [] false }

theorem drawsWith (declared : List VertexBinding) :
    (pass declared).DrawsWith images attributes declared :=
  ⟨⟨_, rfl, rfl, rfl⟩, ⟨_, rfl, rfl⟩⟩

theorem layout_packs : VertexLayout.pack attributes bindings = .ok layout ∧
    layout.Packs bindings (attributes.flatMap Attribute.columns) ∧
    (((pass bindings).compile images).run.run host).2.notices.filter Notice.isUnfilled =
      [.unfilledBindings "particles" 4 3] := by
  have hPack : VertexLayout.pack attributes bindings = .ok layout := by decide
  obtain ⟨hPacks, hNotices⟩ := VertexLayout.pack_exact hPack
  exact ⟨hPack, hPacks, hNotices _ images host (drawsWith bindings)⟩

end Instanced

namespace VertexLayout

/-- Packing fails with an empty binding, and otherwise with the first fault. A pass whose inputs
cannot be packed does nothing at all. -/
theorem pack_outcome {attributes : List Attribute} {declared : List VertexBinding}
    (hWords : pack attributes declared ≠ .error .wordOverflow) :
    (∀ i, pack attributes declared = .error (.emptyBinding i) ↔
        (∃ b, declared[i]? = some b ∧ b.count = 0) ∧
          ∀ j < i, ∀ b, declared[j]? = some b → 0 < b.count) ∧
      (AllFeed declared →
        (∀ e, pack attributes declared = .error e ↔ FirstFault declared attributes e) ∧
          ((∃ l, pack attributes declared = .ok l) ↔ ∀ e, ¬ FirstFault declared attributes e)) ∧
      ((∃ l, pack attributes declared = .ok l) ↔
        AllFeed declared ∧ (∀ a ∈ attributes, a.type ≠ .unclassified) ∧
          EndsMeet declared attributes) ∧
      ∀ e, pack attributes declared = .error e →
        ∀ (p : Pass) (images : ImageMap) (h : Host), p.DrawsWith images attributes declared →
          (p.compile images).run.run h = (.error (.packing p.name e), h) := by
  refine ⟨fun _ => pack_eq_emptyBinding, fun hAll => ?_, exists_pack_iff hWords,
    fun _ he _ _ h hDraws => Pass.run_compile_of_pack_error h hDraws he⟩
  refine ⟨fun _ => pack_eq_error hAll hWords, ?_⟩
  rw [exists_eq_ok_iff]
  exact forall_congr' fun e => not_congr (pack_eq_error hAll hWords)

end VertexLayout

/-! A binding that ends inside the transform. -/

namespace Instanced

def narrow : List VertexBinding := [⟨.perVertex, 2⟩, ⟨.perInstance, 3⟩]

theorem narrow_straddled : VertexLayout.pack attributes narrow ≠ .error .wordOverflow ∧
    FirstFault narrow attributes (.straddling 0 2 4) ∧
    ((pass narrow).compile images).run.run host =
      (.error (.packing "particles" (.straddling 0 2 4)), host) := by
  have hPack : VertexLayout.pack attributes narrow = .error (.straddling 0 2 4) := by decide
  have hWords : VertexLayout.pack attributes narrow ≠ .error .wordOverflow := by simp [hPack]
  have hAll : AllFeed narrow := by simp [AllFeed, narrow]
  obtain ⟨-, hFaults, -, hFails⟩ := VertexLayout.pack_outcome hWords
  exact ⟨hWords, ((hFaults hAll).1 _).mp hPack, hFails _ hPack _ images host (drawsWith narrow)⟩

end Instanced

end FrameGraph
