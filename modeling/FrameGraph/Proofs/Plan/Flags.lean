import FrameGraph.Proofs.Pass.Check
import FrameGraph.Proofs.Plan.Roles

/-! # Usages, flag by flag

A name has a usage exactly if a pass refers to it or it is shown, and the usage has exactly the
flags of the roles that the name is given. So the flags alone tell which names are given roles that
exclude each other, and which output cannot be shown.
-/

namespace FrameGraph

set_option autoImplicit false

namespace Pass

variable (passes : List Pass) (n : Name)

def SampledIn : Prop := ∃ p ∈ passes, ∃ u ∈ p.inputs, u.name = n

def ColorIn : Prop := ∃ p ∈ passes, ∃ c ∈ p.colors, c.name = n

def DepthIn : Prop := ∃ p ∈ passes, ∃ d ∈ p.depth, d.name = n

variable {passes n}

theorem sampledIn_iff : SampledIn passes n ↔ (n, .shaderRead) ∈ passes.flatMap uses := by
  simp only [SampledIn, List.mem_flatMap, input_mem_uses]

theorem colorIn_iff : ColorIn passes n ↔ (n, .colorTarget) ∈ passes.flatMap uses := by
  simp only [ColorIn, List.mem_flatMap, color_mem_uses]

theorem depthIn_iff : DepthIn passes n ↔ (n, .depthTarget) ∈ passes.flatMap uses := by
  simp only [DepthIn, List.mem_flatMap, depth_mem_uses]

theorem role_of_mem_uses {p : Pass} {use : Name × ImageState} (h : use ∈ p.uses) :
    use.2 = .shaderRead ∨ use.2 = .colorTarget ∨ use.2 = .depthTarget := by
  simp only [uses, List.mem_append, List.mem_map] at h
  rcases h with (⟨_, -, rfl⟩ | ⟨_, -, rfl⟩) | ⟨_, -, rfl⟩
  · exact .inl rfl
  · exact .inr (.inl rfl)
  · exact .inr (.inr rfl)

/-- Passes refer to a name in no other roles than these three. -/
theorem exists_role_iff : (∃ role, (n, role) ∈ passes.flatMap uses) ↔
    SampledIn passes n ∨ ColorIn passes n ∨ DepthIn passes n := by
  rw [sampledIn_iff, colorIn_iff, depthIn_iff]
  constructor
  · rintro ⟨role, hMem⟩
    obtain ⟨p, -, hUse⟩ := List.mem_flatMap.mp hMem
    rcases role_of_mem_uses hUse with hRole | hRole | hRole
    · exact .inl (hRole ▸ hMem)
    · exact .inr (.inl (hRole ▸ hMem))
    · exact .inr (.inr (hRole ▸ hMem))
  · rintro (hMem | hMem | hMem)
    · exact ⟨_, hMem⟩
    · exact ⟨_, hMem⟩
    · exact ⟨_, hMem⟩

end Pass

namespace ImageUsage

/-- All that an image of a graph can be used for. -/
def ofGraph : ImageUsage := ((sampled.union colorTarget).union depthTarget).union copySource

theorem includes_union {a b c : ImageUsage} (ha : c.includes a = true)
    (hb : c.includes b = true) : c.includes (a.union b) = true := by
  simp only [includes, union, beq_iff_eq] at ha hb ⊢
  rw [BitVec.and_or_distrib_left, ha, hb]

theorem getLsbD_of_includes {a b : ImageUsage} (h : a.includes b = true) {i : Nat}
    (hBit : b.bits.getLsbD i = true) : a.bits.getLsbD i = true := by
  have hBoth := congrArg (fun bits => bits.getLsbD i) (beq_iff_eq.mp h)
  simpa [hBit] using hBoth

/-- Every flag that images of a graph have a use for is that of a role. -/
theorem role_of_ofGraph {i : Nat} (h : ofGraph.bits.getLsbD i = true) :
    ∃ role : ImageState, role ≠ .unknown ∧ role.usage.bits = BitVec.twoPow 32 i := by
  have hFlags : ∀ i < 32, ofGraph.bits.getLsbD i = true → i = 0 ∨ i = 2 ∨ i = 4 ∨ i = 5 := by
    decide
  rcases hFlags i (BitVec.lt_of_getLsbD h) h with rfl | rfl | rfl | rfl
  · exact ⟨.copySource, by decide, by decide⟩
  · exact ⟨.shaderRead, by decide, by decide⟩
  · exact ⟨.colorTarget, by decide, by decide⟩
  · exact ⟨.depthTarget, by decide, by decide⟩

/-- Usages of images of a graph are told apart by the roles that they allow. -/
theorem eq_of_roles {a b : ImageUsage} (ha : ofGraph.includes a = true)
    (hb : ofGraph.includes b = true)
    (h : ∀ role : ImageState, role ≠ .unknown →
      (a.includes role.usage = true ↔ b.includes role.usage = true)) : a = b := by
  have hBits : ∀ i, a.bits.getLsbD i = true ↔ b.bits.getLsbD i = true := by
    intro i
    by_cases hKnown : ofGraph.bits.getLsbD i = true
    · obtain ⟨role, hUsed, hFlag⟩ := role_of_ofGraph hKnown
      have hWidth := BitVec.lt_of_getLsbD hKnown
      rw [← includes_iff hFlag hWidth, ← includes_iff hFlag hWidth]
      exact h role hUsed
    · exact iff_of_false (fun hBit => hKnown (getLsbD_of_includes ha hBit))
        fun hBit => hKnown (getLsbD_of_includes hb hBit)
  exact congrArg mk (BitVec.eq_of_getLsbD_eq fun i _ => Bool.eq_iff_iff.mpr (hBits i))

end ImageUsage

namespace UsageMap

/-- No usage has a flag that images of a graph have no use for. -/
def OfGraph (m : UsageMap) : Prop :=
  ∀ n usage, m.get? n = some usage → ImageUsage.ofGraph.includes usage = true

theorem OfGraph.add {m : UsageMap} (h : m.OfGraph) {use : Name × ImageState}
    (hUse : ImageUsage.ofGraph.includes use.2.usage = true) : OfGraph (m.add use) := by
  intro n usage hUsage
  rw [get?_add] at hUsage
  by_cases hn : n = use.1
  · rw [if_pos hn] at hUsage
    cases hUsage
    refine ImageUsage.includes_union ?_ hUse
    cases hBefore : m.get? use.1 with
    | none => decide
    | some before => exact h _ before hBefore
  · rw [if_neg hn] at hUsage
    exact h n usage hUsage

theorem OfGraph.addAll {m : UsageMap} (h : m.OfGraph) {uses : List (Name × ImageState)}
    (hUses : ∀ use ∈ uses, ImageUsage.ofGraph.includes use.2.usage = true) :
    OfGraph (uses.foldl UsageMap.add m) := by
  induction uses generalizing m with
  | nil => exact h
  | cons use uses ih =>
    obtain ⟨hUse, hRest⟩ := List.forall_mem_cons.mp hUses
    exact ih (h.add hUse) hRest

theorem OfGraph.erase {m : UsageMap} (h : m.OfGraph) (k : Name) : OfGraph (m.erase k) := by
  intro n usage hUsage
  rw [NameMap.get?_erase] at hUsage
  by_cases hn : n = k
  · rw [if_pos hn] at hUsage
    cases hUsage
  · rw [if_neg hn] at hUsage
    exact h n usage hUsage

theorem ofGraph_ofPasses (passes : List Pass) (output : Name) :
    OfGraph (ofPasses passes output) := by
  have hUses : ∀ use ∈ passes.flatMap Pass.uses,
      ImageUsage.ofGraph.includes use.2.usage = true := by
    intro use hUse
    obtain ⟨p, -, hMem⟩ := List.mem_flatMap.mp hUse
    rcases Pass.role_of_mem_uses hMem with hRole | hRole | hRole
    · rw [hRole]
      decide
    · rw [hRole]
      decide
    · rw [hRole]
      decide
  have hEmpty : OfGraph NameMap.empty := fun _ _ => nofun
  have hShown : OfGraph (add ((passes.flatMap Pass.uses).foldl add NameMap.empty)
      (output, .copySource)) :=
    (hEmpty.addAll hUses).add (show ImageUsage.ofGraph.includes .copySource = true by decide)
  exact hShown.erase .placeholder

/-- The usage of the name has the flag of each role of the name, and no others. -/
structure Tells (passes : List Pass) (output n : Name) (usage : ImageUsage) : Prop where
  sampled : usage.includes .sampled = true ↔ Pass.SampledIn passes n
  color : usage.includes .colorTarget = true ↔ Pass.ColorIn passes n
  depth : usage.includes .depthTarget = true ↔ Pass.DepthIn passes n
  shown : usage.includes .copySource = true ↔ n = output
  nothingElse : ∀ i, usage.bits.getLsbD i = true → ImageUsage.ofGraph.bits.getLsbD i = true

variable {passes : List Pass} {output n : Name}

theorem mem_keys_ofPasses : n ∈ (ofPasses passes output).keys ↔ n ≠ .placeholder ∧
    (Pass.SampledIn passes n ∨ Pass.ColorIn passes n ∨ Pass.DepthIn passes n ∨ n = output) := by
  rw [← NameMap.exists_get?_eq_some, ← Option.isSome_iff_exists, contains_ofPasses,
    Pass.exists_role_iff, or_assoc, or_assoc]

/-- The roles that passes give a name. That it is shown is no role in a pass. -/
theorem asks_iff_mem_uses {role : ImageState} (hUsed : role ≠ .unknown)
    (hShown : role ≠ .copySource) : (ofPasses passes output).Asks n role ↔
      n ≠ .placeholder ∧ (n, role) ∈ passes.flatMap Pass.uses := by
  rw [asks_ofPasses hUsed]
  refine and_congr_right fun _ => or_iff_left fun hSame => ?_
  exact hShown (congrArg Prod.snd hSame).symm

theorem asks_shaderRead : (ofPasses passes output).Asks n .shaderRead ↔
    n ≠ .placeholder ∧ Pass.SampledIn passes n := by
  rw [asks_iff_mem_uses (by decide) (by decide), Pass.sampledIn_iff]

theorem asks_colorTarget : (ofPasses passes output).Asks n .colorTarget ↔
    n ≠ .placeholder ∧ Pass.ColorIn passes n := by
  rw [asks_iff_mem_uses (by decide) (by decide), Pass.colorIn_iff]

theorem asks_depthTarget : (ofPasses passes output).Asks n .depthTarget ↔
    n ≠ .placeholder ∧ Pass.DepthIn passes n := by
  rw [asks_iff_mem_uses (by decide) (by decide), Pass.depthIn_iff]

theorem asks_copySource : (ofPasses passes output).Asks n .copySource ↔
    n ≠ .placeholder ∧ n = output := by
  have hUses : (n, .copySource) ∉ passes.flatMap Pass.uses := by
    intro hMem
    obtain ⟨p, -, hUse⟩ := List.mem_flatMap.mp hMem
    rcases Pass.role_of_mem_uses hUse with hRole | hRole | hRole <;> cases hRole
  rw [asks_ofPasses (by decide), or_iff_right hUses, Prod.mk.injEq, and_iff_left rfl,
    eq_comm (a := output)]

theorem tells_ofPasses {usage : ImageUsage}
    (h : NameMap.get? (ofPasses passes output) n = some usage) :
    Tells passes output n usage := by
  have hn : n ≠ .placeholder :=
    (mem_keys_ofPasses.mp (NameMap.exists_get?_eq_some.mp ⟨usage, h⟩)).1
  have hKnown := ofGraph_ofPasses passes output n usage h
  refine ⟨?_, ?_, ?_, ?_, fun i => ImageUsage.getLsbD_of_includes hKnown⟩
  · exact (asks_iff h .shaderRead).symm.trans (asks_shaderRead.trans (and_iff_right hn))
  · exact (asks_iff h .colorTarget).symm.trans (asks_colorTarget.trans (and_iff_right hn))
  · exact (asks_iff h .depthTarget).symm.trans (asks_depthTarget.trans (and_iff_right hn))
  · exact (asks_iff h .copySource).symm.trans (asks_copySource.trans (and_iff_right hn))

/-- Which names have which roles is all that matters, not where or how often. -/
theorem ofPasses_congr {others : List Pass} (hSame : ∀ n, n ≠ .placeholder → ∀ role,
      ((n, role) ∈ passes.flatMap Pass.uses ↔ (n, role) ∈ others.flatMap Pass.uses)) :
    ofPasses passes output = ofPasses others output := by
  refine NameMap.ext_get? fun n => ?_
  have hContains : (NameMap.get? (ofPasses passes output) n).isSome = true ↔
      (NameMap.get? (ofPasses others output) n).isSome = true := by
    rw [contains_ofPasses, contains_ofPasses]
    exact and_congr_right fun hn => or_congr_left (exists_congr fun role => hSame n hn role)
  cases hFirst : NameMap.get? (ofPasses passes output) n with
  | none =>
    rw [hFirst] at hContains
    exact (Option.not_isSome_iff_eq_none.mp fun hSome => nomatch hContains.mpr hSome).symm
  | some usage =>
    cases hSecond : NameMap.get? (ofPasses others output) n with
    | none => simp [hFirst, hSecond] at hContains
    | some other =>
      have hAll := ofGraph_ofPasses passes output n usage hFirst
      have hOthers := ofGraph_ofPasses others output n other hSecond
      refine congrArg some (ImageUsage.eq_of_roles hAll hOthers fun role hUsed => ?_)
      rw [← asks_iff hFirst role, ← asks_iff hSecond role, asks_ofPasses hUsed,
        asks_ofPasses hUsed]
      exact and_congr_right fun hn => or_congr_left (hSame n hn role)

theorem checkOutput_eq_depthOutput {k : Name} :
    (ofPasses passes output).checkOutput output = .error (.depthOutput k) ↔ k = output ∧
      output ≠ .placeholder ∧ Pass.DepthIn passes output ∧ ¬ Pass.ColorIn passes output := by
  rw [checkOutput_eq_error, asks_depthTarget, asks_colorTarget]
  constructor
  · rintro ⟨⟨hn, hDepth⟩, ⟨-, ⟨⟩⟩ | ⟨hColor, ⟨⟩⟩⟩
    exact ⟨rfl, hn, hDepth, fun hBoth => hColor ⟨hn, hBoth⟩⟩
  · rintro ⟨rfl, hn, hDepth, hColor⟩
    exact ⟨⟨hn, hDepth⟩, .inr ⟨fun hBoth => hColor hBoth.2, rfl⟩⟩

/-- A name has a usage if it is used in a pass or shown. The flags of its usage are those of its
roles, no more and no less. By its flags a name is refused if it is a color target and a depth
target, and the output if it is only a depth target. -/
theorem ofPasses_exact (passes : List Pass) (output : Name) :
    (∀ n, n ∈ (ofPasses passes output).keys ↔ n ≠ .placeholder ∧
      (Pass.SampledIn passes n ∨ Pass.ColorIn passes n ∨ Pass.DepthIn passes n ∨ n = output)) ∧
    (∀ n usage, (ofPasses passes output).get? n = some usage →
      Tells passes output n usage ∧
      ∀ e, kindOf n usage = .error e ↔
        (Pass.ColorIn passes n ∧ Pass.DepthIn passes n) ∧ e = .conflictingRoles n) ∧
    ∀ k, (ofPasses passes output).checkOutput output = .error (.depthOutput k) ↔ k = output ∧
      output ≠ .placeholder ∧ Pass.DepthIn passes output ∧ ¬ Pass.ColorIn passes output := by
  refine ⟨fun n => mem_keys_ofPasses, fun n usage h => ?_, fun k => checkOutput_eq_depthOutput⟩
  have hTells := tells_ofPasses h
  refine ⟨hTells, fun e => ?_⟩
  rw [kindOf_eq_error, hTells.color, hTells.depth, and_assoc]

end UsageMap

end FrameGraph
