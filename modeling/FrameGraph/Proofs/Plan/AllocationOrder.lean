import FrameGraph.Proofs.Plan.Acceptance

/-! # What allocation depends on

Which names have which roles decides what is asked of the device, and in which order. The images
are created in the order of the bytes of their names, up to the first one that fails. Those that are
there by then are released, and the order of these releases is not up to the names.
-/

namespace FrameGraph

set_option autoImplicit false

open Host

/-! ## Names and roles -/

namespace Pass

/-- The same names are sampled, drawn into as color and drawn into as depth. -/
structure SameRoles (passes others : List Pass) : Prop where
  sampled : ∀ n, n ≠ .placeholder → (SampledIn passes n ↔ SampledIn others n)
  color : ∀ n, n ≠ .placeholder → (ColorIn passes n ↔ ColorIn others n)
  depth : ∀ n, n ≠ .placeholder → (DepthIn passes n ↔ DepthIn others n)

namespace SameRoles

variable {passes others : List Pass}

theorem mem_uses (h : SameRoles passes others) {n : Name} (hn : n ≠ .placeholder)
    (role : ImageState) :
    (n, role) ∈ passes.flatMap uses ↔ (n, role) ∈ others.flatMap uses := by
  have hOther : ∀ {ps : List Pass}, (n, role) ∈ ps.flatMap uses →
      role = .shaderRead ∨ role = .colorTarget ∨ role = .depthTarget := by
    intro ps hMem
    obtain ⟨p, -, hUse⟩ := List.mem_flatMap.mp hMem
    exact role_of_mem_uses hUse
  by_cases hRole : role = .shaderRead ∨ role = .colorTarget ∨ role = .depthTarget
  · rcases hRole with rfl | rfl | rfl
    · rw [← sampledIn_iff, ← sampledIn_iff]
      exact h.sampled n hn
    · rw [← colorIn_iff, ← colorIn_iff]
      exact h.color n hn
    · rw [← depthIn_iff, ← depthIn_iff]
      exact h.depth n hn
  · exact iff_of_false (fun hMem => hRole (hOther hMem)) fun hMem => hRole (hOther hMem)

theorem ofPasses_eq (h : SameRoles passes others) (output : Name) :
    UsageMap.ofPasses others output = UsageMap.ofPasses passes output :=
  UsageMap.ofPasses_congr fun _ hn role => (h.mem_uses hn role).symm

/-- It does not matter in which order the passes are, or the references in a pass, or how often
one of either is there. -/
theorem of_uses (hAll : ∀ p ∈ passes, ∃ q ∈ others, p.uses ⊆ q.uses)
    (hOthers : ∀ q ∈ others, ∃ p ∈ passes, q.uses ⊆ p.uses) : SameRoles passes others := by
  have hSame : ∀ use, use ∈ passes.flatMap uses ↔ use ∈ others.flatMap uses := by
    intro use
    constructor
    · intro hMem
      obtain ⟨p, hp, hUse⟩ := List.mem_flatMap.mp hMem
      obtain ⟨q, hq, hSubset⟩ := hAll p hp
      exact List.mem_flatMap.mpr ⟨q, hq, hSubset hUse⟩
    · intro hMem
      obtain ⟨q, hq, hUse⟩ := List.mem_flatMap.mp hMem
      obtain ⟨p, hp, hSubset⟩ := hOthers q hq
      exact List.mem_flatMap.mpr ⟨p, hp, hSubset hUse⟩
  constructor
  · intro n _
    rw [sampledIn_iff, sampledIn_iff, hSame]
  · intro n _
    rw [colorIn_iff, colorIn_iff, hSame]
  · intro n _
    rw [depthIn_iff, depthIn_iff, hSame]

end SameRoles

end Pass

/-! ## The images that are there -/

/-- The image that the call made. -/
def Call.madeImage? : Call → Option (Handle .image)
  | .create (.image _) (.made id) => some ⟨id⟩
  | _ => none

/-- The images that were made, in the order of the calls. -/
def Log.madeImages (log : List Call) : List (Handle .image) := log.filterMap Call.madeImage?

theorem ImageRequest.Fulfilled.madeImages {r : ImageRequest} {i : Image} {log : List Call}
    (h : r.Fulfilled i log) : Log.madeImages log = [i.handle] := by
  obtain ⟨image, memory, view, info, naming, hNaming⟩ := h
  rcases hNaming with rfl | ⟨name, refusal, rfl⟩
  · rfl
  · rfl

theorem UsageMap.Allocates.madeImages {s : Surface} {uses : List (Name × ImageUsage)}
    {images : List (Name × Image)} {log : List Call} (h : Allocates s uses images log) :
    Log.madeImages log = images.map fun e => e.2.handle := by
  induction h with
  | nil => rfl
  | cons _ hImage _ ih =>
    rw [Log.madeImages, List.filterMap_append, List.map_cons]
    exact congr (congrArg _ hImage.madeImages) ih

namespace NameMap

variable {α : Type} {m : NameMap α}

theorem keys_increasing (m : NameMap α) : m.keys.Pairwise fun a b => a.bytes < b.bytes :=
  List.pairwise_map.mpr (m.increasing.imp Name.bytes_lt)

/-- The names in front of an entry are all those with lesser bytes. -/
theorem keys_before {before after : List (Name × α)} {n : Name} {a : α}
    (hSplit : m.entries = before ++ (n, a) :: after) :
    m.keys.filter (fun k => k.bytes < n.bytes) = before.map Prod.fst := by
  have hIncreasing := m.keys_increasing
  rw [keys, hSplit, List.map_append, List.map_cons] at hIncreasing ⊢
  obtain ⟨-, hRest, hBefore⟩ := List.pairwise_append.mp hIncreasing
  have hAfter := (List.pairwise_cons.mp hRest).1
  have hLesser : (before.map Prod.fst).filter (fun k => k.bytes < n.bytes) =
      before.map Prod.fst :=
    List.filter_eq_self.mpr fun k hk => decide_eq_true (hBefore k hk n List.mem_cons_self)
  have hNone : (n :: after.map Prod.fst).filter (fun k => k.bytes < n.bytes) = [] := by
    refine List.filter_eq_nil_iff.mpr fun k hk hLess => ?_
    have hLess := of_decide_eq_true hLess
    rcases List.mem_cons.mp hk with rfl | hk
    · exact List.lt_irrefl _ hLess
    · exact List.lt_asymm hLess (hAfter k hk)
  rw [List.filter_append, hLesser, hNone, List.append_nil]

end NameMap

namespace Draft

/-- Why there is no image for the name, and the calls of the attempt to create it. -/
inductive Lacks (d : Draft) (env : Environment) (h : Host) (n : Name) :
    BuildError → List Call → Prop
  | conflict (hColor : d.DrawsColor n) (hDepth : d.DrawsDepth n) :
      Lacks d env h n (.conflictingRoles n) []
  | failed {usage : ImageUsage} {kind : TargetKind} {e : ImageError} {log : List Call}
      (hUsage : d.plan.usages.get? n = some usage) (hKind : UsageMap.kindOf n usage = .ok kind)
      (hAttempt : (env.surface.request n usage kind).Attempts env.memory h.device (.error e)
        log) : Lacks d env h n (.image e) log

/-- How the allocation of the images of a draft ends, with the calls up to its end and the images
that are released then. If one image lacks, exactly those of the lesser names were created before
it. -/
inductive Allocation (d : Draft) (env : Environment) (h : Host) :
    Except BuildError ImageMap → List Call → List Image → Prop
  | refused {e : BuildError} (hOutput : d.DrawsDepth d.output)
      (hError : e = .conflictingRoles d.output ∨ e = .depthOutput d.output) :
      Allocation d env h (.error e) [] []
  | stopped {before : List (Name × ImageUsage)} {n : Name} {images : List (Name × Image)}
      {first last : List Call} {h₁ : Host} {e : BuildError} (hOutput : ¬ d.DrawsDepth d.output)
      (hName : n ∈ d.plan.usages.keys)
      (hNames : images.map Prod.fst = d.plan.usages.keys.filter fun k => k.bytes < n.bytes)
      (hMade : Log.madeImages first = images.map fun i => i.2.handle)
      (hBefore : before <+: d.plan.usages.entries)
      (hImages : UsageMap.Allocates env.surface before images first) (hSent : Sent h h₁ first)
      (hLacks : d.Lacks env h₁ n e last) :
      Allocation d env h (.error e) (first ++ last) (images.map Prod.snd)
  | complete {images : ImageMap} {log : List Call} (hOutput : ¬ d.DrawsDepth d.output)
      (hNames : images.keys = d.plan.usages.keys)
      (hMade : Log.madeImages log = images.values.map Image.handle)
      (hImages : UsageMap.Allocates env.surface d.plan.usages.entries images.entries log) :
      Allocation d env h (.ok images) log []

theorem lacks_of_stops {d : Draft} {env : Environment} {h : Host} {n : Name}
    {usage : ImageUsage} {e : BuildError} {log : List Call}
    (hUsage : d.plan.usages.get? n = some usage)
    (hStops : UsageMap.Stops env h n usage e log) : d.Lacks env h n e log := by
  cases hStops with
  | conflict hKind =>
    obtain ⟨hColor, hDepth, rfl⟩ := UsageMap.kindOf_eq_error.mp hKind
    exact .conflict ((asks_colorTarget n).mp ⟨usage, hUsage, hColor⟩)
      ((asks_depthTarget n).mp ⟨usage, hUsage, hDepth⟩)
  | failed hKind hAttempt => exact .failed hUsage hKind hAttempt

theorem allocation_of_finishes {d : Draft} {env : Environment} {h : Host}
    {result : Except BuildError ImageMap} {log : List Call} {made : List Image}
    (hFinishes : UsageMap.Finishes env h d.plan.usages d.output result log made) :
    d.Allocation env h result log made := by
  have hShown : d.plan.usages.checkOutput d.output = .ok () ↔ ¬ d.DrawsDepth d.output :=
    UsageMap.checkOutput_eq_ok.trans (not_congr (asks_depthTarget d.output))
  cases hFinishes with
  | refused hOutput =>
    obtain ⟨hDepth, hReason⟩ := UsageMap.checkOutput_eq_error.mp hOutput
    exact .refused ((asks_depthTarget d.output).mp hDepth) (hReason.imp And.right And.right)
  | @stopped before n usage images e first last hOutput hStops =>
    obtain ⟨after, hSplit⟩ := hStops.split
    obtain ⟨h₁, hFirst, hLast⟩ := hStops.stops
    have hUsage : d.plan.usages.get? n = some usage :=
      NameMap.get?_eq_some.mpr (by rw [hSplit]; simp)
    have hBefore : before <+: d.plan.usages.entries := ⟨(n, usage) :: after, hSplit.symm⟩
    refine .stopped (hShown.mp hOutput) (NameMap.exists_get?_eq_some.mp ⟨usage, hUsage⟩) ?_
      hStops.images.madeImages hBefore hStops.images hFirst (lacks_of_stops hUsage hLast)
    rw [hStops.images.names, NameMap.keys_before hSplit]
  | complete hOutput hImages =>
    refine .complete (hShown.mp hOutput) hImages.names ?_ hImages
    rw [hImages.madeImages, NameMap.values, List.map_map]
    rfl

/-- Allocation depends on the roles of the names only. For drafts with the same output whose names
have the same roles, in hosts whose devices answer alike, it has the same result and sends the same
calls, in which the images are created in the order of the bytes of their names, one for each name
with a usage. If it fails, the images that were created go at the end, and only the order in which
they go is up to the hosts. -/
theorem allocation_by_roles {d d' : Draft} (hOutput : d'.output = d.output)
    (hRoles : Pass.SameRoles d.passes d'.passes) (env : Environment) {h h' : Host}
    (hLike : AnswersLike h h') : ∃ result log, ∃ made gone gone' : List Image, ∃ h₁ h₁',
      (d.plan.usages.allocate env d.output).run.run h = (result, h₁) ∧
      (d'.plan.usages.allocate env d'.output).run.run h' = (result, h₁') ∧
      Sent h h₁ (log ++ (gone.flatMap Image.objects).map .destroy) ∧
      Sent h' h₁' (log ++ (gone'.flatMap Image.objects).map .destroy) ∧
      gone.Perm made ∧ gone'.Perm made ∧
      (h'.device.script.order = h.device.script.order → gone' = gone) ∧
      d.plan.usages.keys.Pairwise (fun a b => a.bytes < b.bytes) ∧
      d.Allocation env h result log made := by
  have hUsages : d'.plan.usages = d.plan.usages := by
    change UsageMap.ofPasses d'.passes d'.output = UsageMap.ofPasses d.passes d.output
    rw [hOutput, hRoles.ofPasses_eq]
  rw [hUsages, hOutput]
  obtain ⟨result, log, made, hFinishes, hLeaves, hLeaves'⟩ :=
    UsageMap.allocate_alike env d.plan.usages d.output hLike
  refine ⟨result, log, made, _, _, _, _, Prod.ext hLeaves.result rfl, Prod.ext hLeaves'.result rfl,
    hLeaves.sent, hLeaves'.sent, h.device.script.shuffled_perm _ made,
    h'.device.script.shuffled_perm _ made, fun hOrder => ?_, d.plan.usages.keys_increasing,
    allocation_of_finishes hFinishes⟩
  unfold Script.shuffled
  rw [hOrder]

end Draft

/-! ## A refusal after two images -/

namespace GeometryBuffer

/-- The first pass draws what the second one lights. -/
def draft : Draft where
  passes :=
    [{ name := "Geometry", colors := [.of ⟨"albedo"⟩ .discard, .of ⟨"normal"⟩ .discard] },
      { name := "Lighting"
        inputs := [{ name := ⟨"albedo"⟩ }, { name := ⟨"normal"⟩ }]
        colors := [.of ⟨"scene"⟩ .discard] }]
  output := ⟨"scene"⟩

/-- The same passes in another order, with some of their references moved or repeated. -/
def rearranged : Draft where
  passes :=
    [{ name := "Lighting"
       inputs := [{ name := ⟨"normal"⟩ }, { name := ⟨"albedo"⟩ }, { name := ⟨"normal"⟩ }]
       colors := [.of ⟨"scene"⟩ .discard] },
      { name := "Geometry", colors := [.of ⟨"normal"⟩ .discard, .of ⟨"albedo"⟩ .discard] },
      { name := "Geometry", colors := [.of ⟨"albedo"⟩ .discard] }]
  output := ⟨"scene"⟩

theorem sameRoles : Pass.SameRoles draft.passes rearranged.passes :=
  .of_uses (by decide) (by decide)

/-- The device refuses the third image. -/
def script : Script := .ofLists [⟨.create .image, 3, ⟨-2⟩⟩] [] false

def host : Host where
  device := { script := script }

/-- The other device answers like the first one, but the images go in the opposite order. -/
def backwardHost : Host where
  device := { script := { script with order := fun _ => .backward } }
  notices := [.outputNeverWritten ⟨"scene"⟩]

theorem answersLike : AnswersLike host backwardHost := ⟨rfl, rfl, fun _ => rfl, rfl⟩

theorem stops_at_scene :
    ((draft.plan.usages.allocate TwoPasses.environment draft.output).run.run host).1 =
      .error (.image (.refused ⟨"scene"⟩ ⟨-2⟩)) := by cbv

theorem allocates_alike : rearranged.output = draft.output ∧
    Pass.SameRoles draft.passes rearranged.passes ∧ AnswersLike host backwardHost ∧
    ((draft.plan.usages.allocate TwoPasses.environment draft.output).run.run host).1 =
      .error (.image (.refused ⟨"scene"⟩ ⟨-2⟩)) ∧
    ∃ result log, ∃ made gone gone' : List Image, ∃ h₁ h₁',
      (draft.plan.usages.allocate TwoPasses.environment draft.output).run.run host = (result, h₁) ∧
      (rearranged.plan.usages.allocate TwoPasses.environment rearranged.output).run.run
        backwardHost = (result, h₁') ∧
      Sent host h₁ (log ++ (gone.flatMap Image.objects).map .destroy) ∧
      Sent backwardHost h₁' (log ++ (gone'.flatMap Image.objects).map .destroy) ∧
      gone.Perm made ∧ gone'.Perm made ∧
      (backwardHost.device.script.order = host.device.script.order → gone' = gone) ∧
      draft.plan.usages.keys.Pairwise (fun a b => a.bytes < b.bytes) ∧
      draft.Allocation TwoPasses.environment host result log made := by
  have hOutput : rearranged.output = draft.output := rfl
  exact ⟨hOutput, sameRoles, answersLike, stops_at_scene,
    Draft.allocation_by_roles hOutput sameRoles TwoPasses.environment answersLike⟩

theorem destroyed_eq :
    Log.destroyed ((draft.plan.usages.allocate TwoPasses.environment draft.output).run.run
      host).2.device.calls =
        [⟨.imageView, 3⟩, ⟨.image, 1⟩, ⟨.memory, 2⟩,
          ⟨.imageView, 6⟩, ⟨.image, 4⟩, ⟨.memory, 5⟩] := by
  cbv

theorem destroyed_backward :
    Log.destroyed ((rearranged.plan.usages.allocate TwoPasses.environment rearranged.output).run.run
      backwardHost).2.device.calls =
        [⟨.imageView, 6⟩, ⟨.image, 4⟩, ⟨.memory, 5⟩,
          ⟨.imageView, 3⟩, ⟨.image, 1⟩, ⟨.memory, 2⟩] := by
  cbv

/-- The calls are not all the same, as the two images may go in either order. -/
theorem releases_differ : rearranged.output = draft.output ∧
    Pass.SameRoles draft.passes rearranged.passes ∧ AnswersLike host backwardHost ∧
    ¬ ∃ result log h₁ h₁',
      (draft.plan.usages.allocate TwoPasses.environment draft.output).run.run host = (result, h₁) ∧
      (rearranged.plan.usages.allocate TwoPasses.environment rearranged.output).run.run
        backwardHost = (result, h₁') ∧
      Sent host h₁ log ∧ Sent backwardHost h₁' log := by
  refine ⟨rfl, sameRoles, answersLike, ?_⟩
  rintro ⟨result, log, h₁, h₁', hRun, hRun', hSent, hSent'⟩
  have hFirst := destroyed_eq
  have hSecond := destroyed_backward
  rw [hRun, hSent.calls] at hFirst
  rw [hRun', hSent'.calls] at hSecond
  have hSame := hFirst.symm.trans hSecond
  exact absurd hSame (by decide)

end GeometryBuffer

end FrameGraph
