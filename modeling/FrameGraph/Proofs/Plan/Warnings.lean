import FrameGraph.Proofs.Plan.Independence

/-! # Warnings of a plan

Planning a draft warns about an input whose image is in the unknown state, and about an output that
is left in it. Every reference to a name takes the image out of this state. So the inputs that are
warned about are those whose name nothing before them refers to, and the output is one that nothing
refers to at all.
-/

namespace FrameGraph

set_option autoImplicit false

namespace Pass

instance (passes : List Pass) (n : Name) : Decidable (ColorIn passes n) :=
  inferInstanceAs (Decidable (∃ p ∈ passes, ∃ c ∈ p.colors, c.name = n))

instance (passes : List Pass) (n : Name) : Decidable (DepthIn passes n) :=
  inferInstanceAs (Decidable (∃ p ∈ passes, ∃ d ∈ p.depth, d.name = n))

theorem mem_names_iff {passes : List Pass} {n : Name} :
    n ∈ passes.flatMap names ↔ SampledIn passes n ∨ ColorIn passes n ∨ DepthIn passes n := by
  rw [← exists_role_iff]
  simp only [names, List.mem_flatMap, List.mem_map]
  constructor
  · rintro ⟨p, hp, ⟨n, role⟩, hUse, rfl⟩
    exact ⟨role, p, hp, hUse⟩
  · rintro ⟨role, p, hp, hUse⟩
    exact ⟨p, hp, _, hUse, rfl⟩

theorem inputs_subset_names (p : Pass) : p.inputs.map Use.name ⊆ p.names := by
  simp [names, uses, Function.comp_def]

end Pass

/-! ## The reads of a draft -/

/-- An input of a pass, with the passes before it and the names read before it in its own pass. -/
structure Read where
  pass : String
  earlier : List Pass
  before : List Name
  name : Name

namespace Read

def notice (r : Read) : Notice := .readBeforeWrite r.pass r.name

/-- The names that something before the input refers to. -/
def seen (r : Read) : List Name := r.earlier.flatMap Pass.names ++ r.before

def IsFirst (r : Read) : Prop := r.name ≠ .placeholder ∧ r.name ∉ r.seen

/-- No earlier pass draws into the image. -/
def IsUnwritten (r : Read) : Prop :=
  r.name ≠ .placeholder ∧ ¬ Pass.ColorIn r.earlier r.name ∧ ¬ Pass.DepthIn r.earlier r.name

instance (r : Read) : Decidable r.IsFirst := inferInstanceAs (Decidable (_ ∧ _))

instance (r : Read) : Decidable r.IsUnwritten := inferInstanceAs (Decidable (_ ∧ _))

theorem IsFirst.isUnwritten {r : Read} (h : r.IsFirst) : r.IsUnwritten := by
  obtain ⟨hLive, hSeen⟩ := h
  have hNames : r.name ∉ r.earlier.flatMap Pass.names := fun hMem =>
    hSeen (List.mem_append_left _ hMem)
  rw [Pass.mem_names_iff, not_or, not_or] at hNames
  exact ⟨hLive, hNames.2⟩

end Read

namespace Pass

def readsAfter (earlier : List Pass) (p : Pass) : List Name → List Use → List Read
  | _, [] => []
  | before, u :: rest =>
    ⟨p.name, earlier, before, u.name⟩ :: readsAfter earlier p (before ++ [u.name]) rest

/-- The inputs of the passes in their order, with the given passes before them. -/
def reads : List Pass → List Pass → List Read
  | _, [] => []
  | earlier, p :: rest => p.readsAfter earlier [] p.inputs ++ reads (earlier ++ [p]) rest

variable {earlier passes : List Pass} {p : Pass} {before : List Name} {us : List Use} {r : Read}

theorem mem_readsAfter (h : r ∈ p.readsAfter earlier before us) :
    r.earlier = earlier ∧ before ⊆ r.before ∧ r.name ∈ us.map Use.name := by
  induction us generalizing before with
  | nil => cases h
  | cons u us ih =>
    rcases List.mem_cons.mp h with rfl | h
    · exact ⟨rfl, List.Subset.refl _, List.mem_cons_self⟩
    · obtain ⟨hEarlier, hBefore, hName⟩ := ih h
      exact ⟨hEarlier, fun v hv => hBefore (List.mem_append_left _ hv),
        List.mem_cons_of_mem _ hName⟩

theorem earlier_subset_of_mem_reads (h : r ∈ reads earlier passes) : earlier ⊆ r.earlier := by
  induction passes generalizing earlier with
  | nil => cases h
  | cons p passes ih =>
    rcases List.mem_append.mp h with h | h
    · rw [(mem_readsAfter h).1]
      exact List.Subset.refl _
    · exact fun q hq => ih h (List.mem_append_left _ hq)

/-- What is read is seen by all later reads. -/
theorem pairwise_reads (earlier passes : List Pass) :
    (reads earlier passes).Pairwise fun r s => r.name ∈ s.seen := by
  have hInner : ∀ (p : Pass) (earlier : List Pass) (before : List Name) (us : List Use),
      (p.readsAfter earlier before us).Pairwise fun r s => r.name ∈ s.seen := by
    intro p earlier before us
    induction us generalizing before with
    | nil => exact .nil
    | cons u us ih =>
      refine .cons (fun s hs => ?_) (ih _)
      obtain ⟨-, hBefore, -⟩ := mem_readsAfter hs
      have hu : u.name ∈ s.before := hBefore (by simp)
      exact List.mem_append_right _ hu
  induction passes generalizing earlier with
  | nil => exact .nil
  | cons p passes ih =>
    refine List.pairwise_append.mpr ⟨hInner _ _ _ _, ih _, fun r hr s hs => ?_⟩
    obtain ⟨-, -, hName⟩ := mem_readsAfter hr
    have hp : p ∈ s.earlier := earlier_subset_of_mem_reads hs (by simp)
    exact List.mem_append_left _ (List.mem_flatMap.mpr ⟨p, hp, p.inputs_subset_names hName⟩)

theorem exists_isFirst_readsAfter (earlier : List Pass) (p : Pass) (before : List Name) {n : Name}
    (hLive : n ≠ .placeholder) (hn : n ∈ us.map Use.name) :
    n ∈ earlier.flatMap names ∨ n ∈ before ∨
      ∃ r ∈ p.readsAfter earlier before us, r.IsFirst ∧ r.name = n := by
  induction us generalizing before with
  | nil => cases hn
  | cons u us ih =>
    have hHead : n = u.name → n ∈ earlier.flatMap names ∨ n ∈ before ∨
        ∃ r ∈ p.readsAfter earlier before (u :: us), r.IsFirst ∧ r.name = n := by
      rintro rfl
      by_cases hSeen : u.name ∈ earlier.flatMap names ++ before
      · exact (List.mem_append.mp hSeen).imp_right .inl
      · exact .inr (.inr ⟨_, List.mem_cons_self, ⟨hLive, hSeen⟩, rfl⟩)
    rcases List.mem_cons.mp hn with hn | hn
    · exact hHead hn
    · rcases ih (before ++ [u.name]) hn with hSeen | hSeen | ⟨r, hr, hFirst⟩
      · exact .inl hSeen
      · rcases List.mem_append.mp hSeen with hSeen | hSeen
        · exact .inr (.inl hSeen)
        · exact hHead (List.mem_singleton.mp hSeen)
      · exact .inr (.inr ⟨r, List.mem_cons_of_mem _ hr, hFirst⟩)

/-- Of the reads of an image that is not written yet, the first one is the first reference. -/
theorem exists_isFirst_reads (hr : r ∈ reads earlier passes) (hUnwritten : r.IsUnwritten) :
    r.name ∈ earlier.flatMap names ∨ ∃ s ∈ reads earlier passes, s.IsFirst ∧ s.name = r.name := by
  induction passes generalizing earlier with
  | nil => cases hr
  | cons p passes ih =>
    obtain ⟨hLive, hColor, hDepth⟩ := hUnwritten
    have hInput : r.name ∈ p.inputs.map Use.name → r.name ∈ earlier.flatMap names ∨
        ∃ s ∈ reads earlier (p :: passes), s.IsFirst ∧ s.name = r.name := by
      intro hName
      rcases exists_isFirst_readsAfter earlier p [] hLive hName with hSeen | ⟨⟨⟩⟩ | ⟨s, hs, hFirst⟩
      · exact .inl hSeen
      · exact .inr ⟨s, List.mem_append_left _ hs, hFirst⟩
    rcases List.mem_append.mp hr with hr | hr
    · exact hInput (mem_readsAfter hr).2.2
    · rcases ih hr with hSeen | ⟨s, hs, hFirst⟩
      · rw [List.flatMap_append, List.mem_append] at hSeen
        rcases hSeen with hSeen | hSeen
        · exact .inl hSeen
        · have hp : p ∈ r.earlier := earlier_subset_of_mem_reads hr (by simp)
          rcases mem_names_iff.mp hSeen with hSampled | ⟨q, hq, hDrawn⟩ | ⟨q, hq, hDrawn⟩
          · obtain ⟨q, hq, u, hu, hName⟩ := hSampled
            obtain rfl := List.mem_singleton.mp hq
            exact hInput (List.mem_map.mpr ⟨u, hu, hName⟩)
          · obtain rfl := List.mem_singleton.mp hq
            exact absurd ⟨q, hp, hDrawn⟩ hColor
          · obtain rfl := List.mem_singleton.mp hq
            exact absurd ⟨q, hp, hDrawn⟩ hDepth
      · exact .inr ⟨s, List.mem_append_right _ hs, hFirst⟩

end Pass

/-! ## The names that a state map knows -/

namespace StateMap

/-- Exactly these names are not in the unknown state. -/
def Knows (s : StateMap) (names : List Name) : Prop :=
  ∀ n, n ≠ .placeholder → (s.stateOf n = .unknown ↔ n ∉ names)

variable {s : StateMap} {names : List Name}

theorem knows_start : Knows {} [] := fun _ _ => iff_of_true rfl nofun

theorem Knows.step (h : s.Knows names) (use : Name × ImageState) (hRole : use.2 ≠ .unknown) :
    (s.step use).Knows (names ++ [use.1]) := by
  intro n hn
  rw [List.mem_append, List.mem_singleton, not_or, ← h n hn]
  by_cases hPlaceholder : use.1 = .placeholder
  · rw [step_placeholder hPlaceholder, hPlaceholder, and_iff_left hn]
  · have hLive : use.1.isPlaceholder = false := by rwa [← Bool.not_eq_true, Name.isPlaceholder_iff]
    rw [stateOf_step s use n hLive]
    by_cases hSame : n = use.1
    · simp [hSame, hRole]
    · simp [hSame]

theorem Knows.steps (h : s.Knows names) {uses : List (Name × ImageState)}
    (hRoles : ∀ use ∈ uses, use.2 ≠ .unknown) :
    (s.steps uses).Knows (names ++ uses.map Prod.fst) := by
  induction uses generalizing s names with
  | nil => rwa [List.map_nil, List.append_nil]
  | cons use uses ih =>
    obtain ⟨hRole, hRest⟩ := List.forall_mem_cons.mp hRoles
    have hSteps := ih (h.step use hRole) hRest
    rwa [List.append_assoc] at hSteps

end StateMap

/-! ## The warnings -/

namespace Notice

def isWarning (n : Notice) : Bool := n.level = .warning

/-- A warning about an input without an image behind it. -/
def isVoid : Notice → Bool
  | .readBeforeWrite _ name => name.isPlaceholder
  | _ => false

def isNamed (n : Notice) : Bool := !n.isVoid && n.isWarning

end Notice

namespace Pass

open StateMap

variable {s : StateMap} {earlier passes : List Pass} {p : Pass} {before : List Name}

theorem filter_useNotice (u : Use) (role : ImageState) :
    (useNotice u role).filter Notice.isNamed = [] := by
  unfold useNotice
  split <;> rfl

theorem filter_targetNotices {α : Type} (ts : List (Target α)) (role : ImageState) :
    (ts.flatMap fun t => useNotice t.toUse role).filter Notice.isNamed = [] := by
  rw [List.filter_flatMap, List.flatMap_eq_nil_iff]
  exact fun t _ => filter_useNotice t.toUse role

theorem filter_inputNotices (u : Use) (h : s.Knows (earlier.flatMap names ++ before)) :
    (inputNotices p.name (s.stamp u)).filter Notice.isNamed =
      ([⟨p.name, earlier, before, u.name⟩].filter fun r : Read => r.IsFirst).map Read.notice := by
  rw [inputNotices, List.filter_append, filter_useNotice, List.nil_append, stamp_name]
  by_cases hName : u.name = .placeholder
  · have hFirst : ¬ (⟨p.name, earlier, before, u.name⟩ : Read).IsFirst := fun h => h.1 hName
    rw [List.filter_cons_of_neg (by simpa using hFirst), hName]
    split <;> rfl
  · have hLive : u.name.isPlaceholder = false := by rwa [← Bool.not_eq_true, Name.isPlaceholder_iff]
    have hStamp : s.stamp u = { u with initial := s.stateOf u.name } :=
      if_pos (Use.isLive_iff.mpr hName)
    have hFirst : (⟨p.name, earlier, before, u.name⟩ : Read).IsFirst ↔
        s.stateOf u.name = .unknown := by
      rw [h u.name hName]
      exact and_iff_right hName
    have hNamed : (Notice.readBeforeWrite p.name u.name).isNamed = true := by
      simp [Notice.isNamed, Notice.isWarning, Notice.level, Notice.isVoid, hLive]
    rw [hStamp]
    by_cases hState : s.stateOf u.name = .unknown
    · rw [if_pos hState, List.filter_cons_of_pos hNamed,
        List.filter_cons_of_pos (by simpa [hFirst] using hState)]
      rfl
    · rw [if_neg hState, List.filter_cons_of_neg (by simpa [hFirst] using hState)]
      rfl

theorem filter_inputs (p : Pass) (us : List Use) (h : s.Knows (earlier.flatMap names ++ before)) :
    ((s.stampUses .shaderRead us).flatMap (inputNotices p.name)).filter Notice.isNamed =
      ((p.readsAfter earlier before us).filter fun r => r.IsFirst).map Read.notice := by
  induction us generalizing s before with
  | nil => rfl
  | cons u us ih =>
    have hNext := h.step (u.name, .shaderRead) nofun
    rw [List.append_assoc] at hNext
    rw [stampUses, List.flatMap_cons, List.filter_append, filter_inputNotices u h, ih hNext,
      readsAfter, ← List.map_append, ← List.filter_append]
    rfl

theorem filter_notices (h : s.Knows (earlier.flatMap names)) :
    (p.resolve s).notices.filter Notice.isNamed =
      ((p.readsAfter earlier [] p.inputs).filter fun r => r.IsFirst).map Read.notice := by
  rw [notices, List.filter_append, List.filter_append, filter_targetNotices, filter_targetNotices,
    List.append_nil, List.append_nil]
  rw [← List.append_nil (earlier.flatMap names)] at h
  exact filter_inputs p p.inputs h

theorem filter_allNotices (h : s.Knows (earlier.flatMap names)) :
    ((resolveAll s passes).flatMap notices).filter Notice.isNamed =
      ((reads earlier passes).filter fun r => r.IsFirst).map Read.notice := by
  induction passes generalizing s earlier with
  | nil => rfl
  | cons p passes ih =>
    have hNext : (p.leaves s).Knows ((earlier ++ [p]).flatMap names) := by
      rw [List.flatMap_append, List.flatMap_singleton]
      exact h.steps p.uses_roles
    rw [resolveAll, List.flatMap_cons, List.filter_append, filter_notices h, ih hNext, reads,
      List.filter_append, List.map_append]

end Pass

namespace Draft

def warnings (d : Draft) : List Notice := d.notices.filter Notice.isWarning

def reads (d : Draft) : List Read := Pass.reads [] d.passes

/-- The inputs that are the first references to their images. -/
def firstReads (d : Draft) : List Read := d.reads.filter fun r => r.IsFirst

def Unreferenced (d : Draft) : Prop :=
  d.output = .placeholder ∨ ∀ p ∈ d.passes, d.output ∉ p.names

instance (d : Draft) : Decidable d.Unreferenced := inferInstanceAs (Decidable (_ ∨ _))

theorem outputState_eq_unknown {d : Draft} : d.outputState = .unknown ↔ d.Unreferenced := by
  have hRoles := Pass.allUses_roles d.passes
  rw [outputState, Pass.leavesAll_eq, Unreferenced]
  by_cases hOutput : d.output = .placeholder
  · rw [hOutput, StateMap.stateOf_steps_placeholder]
    exact iff_of_true rfl (.inl rfl)
  · rw [StateMap.knows_start.steps hRoles d.output hOutput, or_iff_right hOutput, List.nil_append,
      List.map_flatMap, List.mem_flatMap]
    simp only [not_exists, not_and]
    rfl

/-- Of the inputs behind which there is an image, those are warned about that nothing before them
refers to: one for each image that is read before any pass writes it. The output is warned about
when nothing refers to it. -/
theorem warnings_exact (d : Draft) :
    d.warnings.filter (fun n => !n.isVoid) =
        d.firstReads.map Read.notice ++
          (if d.Unreferenced then [.outputNeverWritten d.output] else []) ∧
      (d.firstReads.map Read.name).Nodup ∧
      ∀ n, n ∈ d.firstReads.map Read.name ↔ ∃ r ∈ d.reads, r.name = n ∧ r.IsUnwritten := by
  refine ⟨?_, ?_, fun n => ⟨?_, ?_⟩⟩
  · have hReads : (d.plan.passes.flatMap Pass.notices).filter Notice.isNamed =
        d.firstReads.map Read.notice := Pass.filter_allNotices StateMap.knows_start
    have hNamed : d.warnings.filter (fun n => !n.isVoid) = d.notices.filter Notice.isNamed :=
      List.filter_filter ..
    rw [hNamed, notices, List.filter_append, hReads]
    simp only [outputState_eq_unknown]
    split
    · rfl
    · rfl
  · have hSeen : d.firstReads.Pairwise fun r s => r.name ∈ s.seen :=
      (Pass.pairwise_reads [] d.passes).filter _
    rw [List.nodup_iff_pairwise_ne, List.pairwise_map]
    refine hSeen.imp_of_mem fun {r s} _ hs hMem hSame => ?_
    have hFirst : s.IsFirst := of_decide_eq_true (List.mem_filter.mp hs).2
    exact hFirst.2 (hSame ▸ hMem)
  · intro hn
    obtain ⟨r, hr, hName⟩ := List.mem_map.mp hn
    obtain ⟨hRead, hFirst⟩ := List.mem_filter.mp hr
    exact ⟨r, hRead, hName, (of_decide_eq_true hFirst : r.IsFirst).isUnwritten⟩
  · rintro ⟨r, hr, rfl, hUnwritten⟩
    rcases Pass.exists_isFirst_reads hr hUnwritten with hNone | ⟨s, hs, hFirst, hName⟩
    · cases hNone
    · exact List.mem_map.mpr ⟨s, List.mem_filter.mpr ⟨hs, decide_eq_true hFirst⟩, hName⟩

/-- A warning for every input that no pass before writes, and one for an output that none does. -/
def unwrittenWarnings (d : Draft) : List Notice :=
  (d.reads.filter fun r => r.IsUnwritten).map Read.notice ++
    if d.output = .placeholder ∨ ¬ Pass.ColorIn d.passes d.output ∧ ¬ Pass.DepthIn d.passes d.output
    then [.outputNeverWritten d.output] else []

end Draft

/-! Two passes that sample an image which is never written, and which is shown. -/

namespace Readers

def scene : Name := ⟨"scene"⟩

def draft : Draft where
  passes := [.ofDeclarations "first" [.read scene], .ofDeclarations "second" [.read scene]]
  output := scene

theorem warned_once : draft.warnings = [.readBeforeWrite "first" scene] ∧
    draft.unwrittenWarnings = [.readBeforeWrite "first" scene, .readBeforeWrite "second" scene,
      .outputNeverWritten scene] ∧
    draft.warnings ≠ draft.unwrittenWarnings := by
  decide

end Readers

end FrameGraph
